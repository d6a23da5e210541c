import Wanfw.Orchestrator.Observe

/-!
# Garbage collection

What OBSERVE leaves behind when it returns. It asks for the managed objects of a kind,
keeps those of a service that is not desired, and removes them one after the other:
`Swept` says what is left of the list at any point of such a loop. `collected_of_observe`
puts the loops together: of every kind exactly the orphans are gone, volumes only where
their label asks for it, containers before networks before volumes, and the status
directory has one document for each desired service.
-/

namespace Wanfw.Orchestrator

open Wanfw.Js

/-- A managed object of a service that is not desired. -/
def isDoomed (ds : DesiredState) (labels : Obj JsString) : Bool := isManaged labels && isOrphan ds labels

/-- The volume goes together with its service. -/
def Volume.optsIn (v : Volume) : Bool := Obj.get v.labels (js "wanfw.removeVolumesOnDelete") == some (js "true")

/-! ### Removing the objects of a list -/

/-- One of the three collections: where the daemon keeps the objects, what it keeps beside them, which
objects go and by which call. -/
structure Sweep (α κ β : Type) where
  view : Docker → List α
  key : α → κ
  others : Docker → β
  labels : α → Obj JsString
  gone : α → Bool
  call : α → Call
  nodup : ∀ d, ((view d).map key).Nodup

section Sweep

variable {α β κ : Type} [BEq κ] [LawfulBEq κ] {S : Sweep α κ β} {todo : List α} {x : α} {w₀ w w' : World}

/-- The objects are those of `w₀` without the ones that are gone, but for those that are still to be
removed. Nothing else of the daemon has changed, and with the calls still to come the log is complete. -/
structure Swept (S : Sweep α κ β) (w₀ : World) (todo : List α) (w : World) : Prop where
  view : S.view w.docker = (S.view w₀.docker).filter fun y => !S.gone y || (todo.map S.key).contains (S.key y)
  others : S.others w.docker = S.others w₀.docker
  calls : w.log.map (·.call) ++ (todo.filter S.gone).map S.call =
    w₀.log.map (·.call) ++ ((S.view w₀.docker).filter S.gone).map S.call
  status : w.status = w₀.status
  nodup : (todo.map S.key).Nodup
  mem : ∀ y ∈ todo, y ∈ S.view w₀.docker

/-- What a collection leaves. -/
structure SweptAll (S : Sweep α κ β) (w₀ w : World) : Prop where
  view : S.view w.docker = (S.view w₀.docker).filter fun y => !S.gone y
  others : S.others w.docker = S.others w₀.docker
  calls : w.log.map (·.call) = w₀.log.map (·.call) ++ ((S.view w₀.docker).filter S.gone).map S.call
  status : w.status = w₀.status

/-- An object is kept. -/
theorem Swept.keep (h : Swept S w₀ (x :: todo) w) (hx : S.gone x = false) : Swept S w₀ todo w where
  view := by
    rw [h.view]
    refine List.filter_congr fun y hy => ?_
    by_cases hkey : S.key y = S.key x
    · rw [List.inj_on_of_nodup_map (S.nodup _) hy (h.mem x (by simp)) hkey, hx]
      rfl
    · simp [beq_eq_false_iff_ne.mpr hkey]
  others := h.others
  calls := by
    have := h.calls
    rwa [List.filter_cons_of_neg (by simp [hx])] at this
  status := h.status
  nodup := (List.nodup_cons.mp h.nodup).2
  mem y hy := h.mem y (by simp [hy])

/-- An object is removed. -/
theorem Swept.remove (h : Swept S w₀ (x :: todo) w) (hx : S.gone x = true)
    (hview : S.view w'.docker = (S.view w.docker).filter fun y => S.key y != S.key x)
    (hothers : S.others w'.docker = S.others w.docker) (hlog : w'.log.map (·.call) = w.log.map (·.call) ++ [S.call x])
    (hstatus : w'.status = w.status) : Swept S w₀ todo w' where
  view := by
    rw [hview, h.view, List.filter_filter]
    refine List.filter_congr fun y hy => ?_
    by_cases hkey : S.key y = S.key x
    · have hnot : S.key x ∉ todo.map S.key := (List.nodup_cons.mp h.nodup).1
      rw [List.inj_on_of_nodup_map (S.nodup _) hy (h.mem x (by simp)) hkey, hx]
      simpa using hnot
    · simp [bne, beq_eq_false_iff_ne.mpr hkey]
  others := hothers.trans h.others
  calls := by
    have := h.calls
    rw [List.filter_cons_of_pos hx, List.map_cons] at this
    rw [hlog, List.append_assoc]
    exact this
  status := hstatus.trans h.status
  nodup := (List.nodup_cons.mp h.nodup).2
  mem y hy := h.mem y (by simp [hy])

/-- Before the first removal. -/
theorem Swept.start (w : World) {doomed : α → Bool} (hgone : ∀ y, S.gone y = true → doomed y = true) :
    Swept S w ((S.view w.docker).filter doomed) w where
  view := by
    refine (List.filter_eq_self.mpr fun y hy => ?_).symm
    cases hg : S.gone y with
    | false => rfl
    | true =>
      simp only [Bool.not_true, Bool.false_or, List.contains_iff_mem]
      exact List.mem_map_of_mem (List.mem_filter.mpr ⟨hy, hgone y hg⟩)
  others := rfl
  calls := by
    rw [List.filter_filter]
    congr 3
    funext y
    cases hg : S.gone y with
    | false => rfl
    | true => simp [hgone y hg]
  status := rfl
  nodup := (S.nodup w.docker).sublist (List.filter_sublist.map _)
  mem y hy := (List.mem_filter.mp hy).1

/-- After the last. -/
theorem Swept.finish (h : Swept S w₀ [] w) : SweptAll S w₀ w where
  view := by
    rw [h.view]
    simp
  others := h.others
  calls := by simpa using h.calls
  status := h.status

omit [LawfulBEq κ] in
/-- Nothing that the sweep speaks of has changed. -/
theorem Swept.same (h : Swept S w₀ todo w) (hdocker : w'.docker = w.docker) (hlog : w'.log = w.log)
    (hstatus : w'.status = w.status) : Swept S w₀ todo w' where
  view := hdocker ▸ h.view
  others := hdocker ▸ h.others
  calls := hlog ▸ h.calls
  status := hstatus.trans h.status
  nodup := h.nodup
  mem := h.mem

variable {env : Env} {ds : DesiredState}

/-- The managed objects of services that are not desired, one after the other. -/
theorem returns_sweep (hgone : ∀ x, S.gone x = true → isDoomed ds (S.labels x) = true) {body : α → M Unit}
    (hbody : ∀ x todo, isDoomed ds (S.labels x) = true →
      Act.Returns (Swept S w₀ (x :: todo)) (body x) fun _ => Swept S w₀ todo) :
    Act.Returns (· = w₀)
      (query env (fun d => (S.view d).filter fun x => isManaged (S.labels x)) >>= fun xs =>
        Act.forEach (xs.filter fun x => isOrphan ds (S.labels x)) body)
      fun _ => SweptAll S w₀ := by
  let I := fun todo w => Swept S w₀ todo w ∧ ∀ x ∈ todo, isDoomed ds (S.labels x) = true
  refine Act.Triple.bind (Q := fun xs w => I (xs.filter fun x => isOrphan ds (S.labels x)) w) (returns_query ?_) fun xs => ?_
  · rintro w rfl
    rw [List.filter_filter]
    simp only [Bool.and_comm (isOrphan _ _)]
    exact ⟨(Swept.start w hgone).same rfl rfl rfl, fun x hx => (List.mem_filter.mp hx).2⟩
  · refine (Act.Triple.forEachLeft (I := I) (fun x todo w hw => ?_) _).conseq (fun _ h => h) (fun _ _ h => h.1.finish)
      fun _ _ h => h
    have := hbody x todo (hw.2 x (by simp)) w hw.1
    split at this
    · exact ⟨this, fun y hy => hw.2 y (by simp [hy])⟩
    · trivial

/-- A removal and its journal row. -/
theorem returns_removal (hx : S.gone x = true) {planId kind name : JsString} {removed : Obj Json}
    {f : Docker → Except JsError (Unit × Docker)} (hview : ∀ d d', f d = .ok ((), d') → S.view d' = (S.view d).filter fun y => S.key y != S.key x)
    (hothers : ∀ d d', f d = .ok ((), d') → S.others d' = S.others d) :
    Act.Returns (Swept S w₀ (x :: todo))
      (issue env .observe (S.call x) f >>= fun _ => gcJournal planId kind name removed) fun _ => Swept S w₀ todo := by
  refine Act.Triple.bind (Q := fun _ => Swept S w₀ todo) (returns_issue fun w a d h hf => ?_) fun _ =>
    Act.Triple.modify fun w h => h.same rfl rfl rfl
  exact h.remove hx (hview w.docker d hf) (hothers w.docker d hf) (by simp) rfl

end Sweep

/-! ### The three loops -/

section Loops

variable {env : Env} {planId : JsString} {w₀ : World} (ds : DesiredState)

/-- The collection of containers. -/
def containerSweep : Sweep Container ℕ (List Network × List Volume) where
  view := Docker.containers
  key := Container.id
  others d := (d.networks, d.volumes)
  labels := Container.labels
  gone c := isDoomed ds c.labels
  call c := .removeContainer c.id
  nodup := Docker.ids_nodup

/-- The collection of networks. -/
def networkSweep : Sweep Network ℕ (List Container × List Volume) where
  view := Docker.networks
  key := Network.id
  others d := (d.containers, d.volumes)
  labels := Network.labels
  gone n := isDoomed ds n.labels
  call n := .removeNetwork n.id
  nodup := Docker.networks_nodup

/-- The collection of volumes, as far as their label asks for it. -/
def volumeSweep : Sweep Volume JsString (List Container × List Network) where
  view := Docker.volumes
  key := Volume.name
  others d := (d.containers, d.networks)
  labels := Volume.labels
  gone v := isDoomed ds v.labels && v.optsIn
  call v := .removeVolume v.name
  nodup := Docker.volumes_nodup

variable {ds}

theorem returns_collectContainers :
    Act.Returns (· = w₀) (collectContainers env ds planId) fun _ => SweptAll (containerSweep ds) w₀ := by
  refine returns_sweep (S := containerSweep ds) (fun _ h => h) fun c todo hc =>
    returns_removal (S := containerSweep ds) hc ?_ ?_ <;>
  · intro d d' h
    unfold Docker.removeContainer at h
    split at h <;> cases h
    rfl

theorem returns_collectNetworks :
    Act.Returns (· = w₀) (collectNetworks env ds planId) fun _ => SweptAll (networkSweep ds) w₀ := by
  refine returns_sweep (S := networkSweep ds) (fun _ h => h) fun n todo hn =>
    returns_removal (S := networkSweep ds) hn ?_ ?_ <;>
  · intro d d' h
    unfold Docker.removeNetwork at h
    split at h <;> cases h
    rfl

theorem returns_collectVolumes :
    Act.Returns (· = w₀) (collectVolumes env ds planId) fun _ => SweptAll (volumeSweep ds) w₀ := by
  refine returns_sweep (S := volumeSweep ds) (fun _ h => (Bool.and_eq_true _ _ ▸ h).1) fun v todo hv => ?_
  split
  · rename_i hopt
    have hgone : (volumeSweep ds).gone v = true := Bool.and_eq_true_iff.mpr ⟨hv, beq_iff_eq.mpr hopt⟩
    refine returns_removal hgone ?_ ?_ <;>
    · intro d d' h
      unfold Docker.removeVolume at h
      split at h <;> cases h
      rfl
  · rename_i hopt
    have hkept : (volumeSweep ds).gone v = false := Bool.and_eq_false_iff.mpr (.inr (beq_eq_false_iff_ne.mpr hopt))
    exact Act.Triple.modify fun w h => (h.keep hkept).same rfl rfl rfl

end Loops

/-! ### The status directory -/

/-- The documents of the services are written, but for those of `todo`. -/
structure Documented (env : Env) (ds : DesiredState) (ctx : Ctx) (w₀ : World) (todo : List Service) (w : World) : Prop where
  docker : w.docker = w₀.docker
  log : w.log = w₀.log
  nodup : (Obj.keys w₀.status).Nodup → (Obj.keys w.status).Nodup
  subset : todo ⊆ ds.services
  written : ∀ s ∈ ds.services, s ∈ todo ∨
    Obj.get w.status s.id = some (statusDoc env ctx (w₀.docker.containers.filter fun c => isManaged c.labels) s)

section Status

variable {env : Env} {ds : DesiredState} {ctx : Ctx} {w₀ w : World} {s : Service} {todo : List Service}

theorem Documented.write (h : Documented env ds ctx w₀ (s :: todo) w) :
    Documented env ds ctx w₀ todo { w with
      status := Obj.setOwn w.status s.id
        (statusDoc env ctx (w₀.docker.containers.filter fun c => isManaged c.labels) s) } where
  docker := h.docker
  log := h.log
  nodup hnd := Obj.nodup_setOwn (h.nodup hnd) _ _
  subset := List.Subset.trans (List.subset_cons_self _ _) h.subset
  written t ht := by
    rw [Obj.get_setOwn]
    by_cases hid : s.id = t.id
    · rw [List.inj_on_of_nodup_map ds.nodup (h.subset (by simp)) ht hid, if_pos rfl]
      exact .inr rfl
    · rw [if_neg hid]
      refine (h.written t ht).imp_left fun hmem => ?_
      rcases List.mem_cons.mp hmem with rfl | hmem
      · exact absurd rfl hid
      · exact hmem

theorem returns_writeStatus :
    Act.Returns (Documented env ds ctx w₀ (s :: todo))
      (writeStatus env s.id (statusDoc env ctx (w₀.docker.containers.filter fun c => isManaged c.labels) s))
      fun _ => Documented env ds ctx w₀ todo := by
  unfold writeStatus
  split
  · exact Act.Triple.throw fun _ _ => trivial
  · exact Act.Triple.modify fun w h => h.write

/-- Looking up a key that the filter keeps. -/
theorem get_filter_keys {α : Type} {o : Obj α} {p : JsString → Bool} {k : JsString} (hk : p k = true) :
    Obj.get (o.filter fun e => p e.1) k = Obj.get o k := by
  induction o with
  | nil => rfl
  | cons e o ih =>
    rw [Obj.get_cons, ← ih]
    cases he : p e.1 with
    | false =>
      have hne : e.1 ≠ k := by
        rintro rfl
        simp [hk] at he
      rw [List.filter_cons_of_neg (by simp [he]), if_neg hne]
    | true => rw [List.filter_cons_of_pos (by simp [he]), Obj.get_cons]

end Status

/-! ### OBSERVE -/

/-- What OBSERVE leaves of `w`. -/
structure Collected (env : Env) (ds : DesiredState) (w w' : World) : Prop where
  containers : w'.docker.containers = w.docker.containers.filter fun c => !isDoomed ds c.labels
  networks : w'.docker.networks = w.docker.networks.filter fun n => !isDoomed ds n.labels
  volumes : w'.docker.volumes = w.docker.volumes.filter fun v => !(isDoomed ds v.labels && v.optsIn)
  /-- The calls, in their order. -/
  calls : w'.log.map (·.call) = w.log.map (·.call) ++
    ((w.docker.containers.filter fun c => isDoomed ds c.labels).map (fun c => .removeContainer c.id) ++
      (w.docker.networks.filter fun n => isDoomed ds n.labels).map (fun n => .removeNetwork n.id) ++
      (w.docker.volumes.filter fun v => isDoomed ds v.labels && v.optsIn).map fun v => .removeVolume v.name)
  documents : ∀ s ∈ ds.services, Obj.get w'.status s.id =
    some (statusDoc env w.ctx (w'.docker.containers.filter fun c => isManaged c.labels) s)
  stale : ∀ e ∈ w'.status, ∃ s ∈ ds.services, s.id = e.1
  nodup : (Obj.keys w.status).Nodup → (Obj.keys w'.status).Nodup

section Observe

variable {env : Env} {ds : DesiredState} {w w' : World}

/-- The state after the three loops. -/
structure Gone (ds : DesiredState) (w w' : World) : Prop where
  containers : w'.docker.containers = w.docker.containers.filter fun c => !isDoomed ds c.labels
  networks : w'.docker.networks = w.docker.networks.filter fun n => !isDoomed ds n.labels
  volumes : w'.docker.volumes = w.docker.volumes.filter fun v => !(isDoomed ds v.labels && v.optsIn)
  calls : w'.log.map (·.call) = w.log.map (·.call) ++
    ((w.docker.containers.filter fun c => isDoomed ds c.labels).map (fun c => .removeContainer c.id) ++
      (w.docker.networks.filter fun n => isDoomed ds n.labels).map (fun n => .removeNetwork n.id) ++
      (w.docker.volumes.filter fun v => isDoomed ds v.labels && v.optsIn).map fun v => .removeVolume v.name)
  status : w'.status = w.status

theorem Gone.of_swept {w₁ w₂ w₃ : World} (h₁ : SweptAll (containerSweep ds) w w₁) (h₂ : SweptAll (networkSweep ds) w₁ w₂)
    (h₃ : SweptAll (volumeSweep ds) w₂ w₃) : Gone ds w w₃ := by
  have hothers₁ : (w₁.docker.networks, w₁.docker.volumes) = (w.docker.networks, w.docker.volumes) := h₁.others
  have hothers₂ : (w₂.docker.containers, w₂.docker.volumes) = (w₁.docker.containers, w₁.docker.volumes) := h₂.others
  have hothers₃ : (w₃.docker.containers, w₃.docker.networks) = (w₂.docker.containers, w₂.docker.networks) := h₃.others
  simp only [Prod.mk.injEq] at hothers₁ hothers₂ hothers₃
  have hview₁ : w₁.docker.containers = w.docker.containers.filter fun c => !isDoomed ds c.labels := h₁.view
  have hview₂ : w₂.docker.networks = w₁.docker.networks.filter fun n => !isDoomed ds n.labels := h₂.view
  have hview₃ : w₃.docker.volumes = w₂.docker.volumes.filter fun v => !(isDoomed ds v.labels && v.optsIn) := h₃.view
  have hcalls₁ : w₁.log.map (·.call) = w.log.map (·.call) ++
    (w.docker.containers.filter fun c => isDoomed ds c.labels).map fun c => .removeContainer c.id := h₁.calls
  have hcalls₂ : w₂.log.map (·.call) = w₁.log.map (·.call) ++
    (w₁.docker.networks.filter fun n => isDoomed ds n.labels).map fun n => .removeNetwork n.id := h₂.calls
  have hcalls₃ : w₃.log.map (·.call) = w₂.log.map (·.call) ++
    (w₂.docker.volumes.filter fun v => isDoomed ds v.labels && v.optsIn).map fun v => .removeVolume v.name := h₃.calls
  constructor
  · rw [hothers₃.1, hothers₂.1, hview₁]
  · rw [hothers₃.2, hview₂, hothers₁.1]
  · rw [hview₃, hothers₂.2, hothers₁.2]
  · rw [hcalls₃, hcalls₂, hcalls₁, hothers₂.2, hothers₁.1, hothers₁.2]
    simp only [List.append_assoc]
  · rw [h₃.status, h₂.status, h₁.status]

/-- The status documents of services that are not desired are removed. -/
theorem Collected.of_documented {w₁ w₂ : World} (hg : Gone ds w w₁) (hd : Documented env ds w.ctx w₁ [] w₂) :
    Collected env ds w { w₂ with status := w₂.status.filter fun e => ds.services.any fun s => s.id == e.1 } where
  containers := (congrArg Docker.containers hd.docker).trans hg.containers
  networks := (congrArg Docker.networks hd.docker).trans hg.networks
  volumes := (congrArg Docker.volumes hd.docker).trans hg.volumes
  calls := (congrArg (List.map (·.call)) hd.log).trans hg.calls
  documents s hs := by
    rw [get_filter_keys (p := fun k => ds.services.any fun s => s.id == k) (List.any_eq_true.mpr ⟨s, hs, by simp⟩),
      hd.docker]
    exact (hd.written s hs).resolve_left List.not_mem_nil
  stale e he := by
    obtain ⟨s, hs, hid⟩ := List.any_eq_true.mp (List.mem_filter.mp he).2
    exact ⟨s, hs, beq_iff_eq.mp hid⟩
  nodup hnd := by
    refine List.Nodup.sublist (List.filter_sublist.map _) (hd.nodup ?_)
    rwa [hg.status]

theorem returns_observeBody : Act.Returns (· = w) (observeBody env ds w.ctx) fun _ => Collected env ds w := by
  refine Act.Triple.bind returns_collectContainers fun _ => ?_
  refine Act.Triple.bind (Q := fun _ w₂ => ∃ w₁, SweptAll (containerSweep ds) w w₁ ∧ SweptAll (networkSweep ds) w₁ w₂)
    (Act.Triple.ofEach fun w₁ h₁ => returns_collectNetworks.conseq (fun _ h => h) (fun _ w₂ h₂ => ⟨w₁, h₁, h₂⟩)
      fun _ _ h => h) fun _ => ?_
  refine Act.Triple.bind (Q := fun _ => Gone ds w)
    (Act.Triple.ofEach fun w₂ ⟨w₁, h₁, h₂⟩ => returns_collectVolumes.conseq (fun _ h => h)
      (fun _ w₃ h₃ => .of_swept h₁ h₂ h₃) fun _ _ h => h) fun _ => ?_
  refine Act.Triple.bind (Q := fun cs w' => ∃ w₁, Gone ds w w₁ ∧
    cs = (w₁.docker.containers.filter fun c => isManaged c.labels) ∧ Documented env ds w.ctx w₁ ds.services w')
    (returns_query fun w₁ h => ⟨w₁, h, rfl, rfl, rfl, fun hnd => hnd, List.Subset.refl _, fun s hs => .inl hs⟩)
    fun remaining => ?_
  refine Act.Triple.bind (Q := fun _ w' => ∃ w₁, Gone ds w w₁ ∧ Documented env ds w.ctx w₁ [] w')
    (Act.Triple.ofEach ?_) fun _ => Act.Triple.modify fun w₂ ⟨w₁, hg, hd⟩ => .of_documented hg hd
  rintro w₂ ⟨w₁, hg, rfl, hd⟩
  exact (Act.Triple.forEachLeft (I := Documented env ds w.ctx w₁) (fun _ _ => returns_writeStatus) _).conseq
    (fun _ h => h ▸ hd) (fun _ _ h => ⟨w₁, hg, h⟩) fun _ _ h => h

theorem returns_observeStage (hds : w.ctx.desiredState = some ds) (hf : ds.framework.isSome) :
    Act.Returns (· = w) (observeStage env) fun r w' => r = none ∧ Collected env ds w w' := by
  obtain ⟨f, hf⟩ := Option.isSome_iff_exists.mp hf
  refine Act.Triple.getBind ?_
  rintro w' rfl
  simp only [hds, hf]
  exact Act.Triple.bind returns_observeBody fun _ => Act.Triple.pure fun _ hc => ⟨rfl, hc⟩

/-- **Garbage collection is exact.** For every state of the daemon, every desired state with a framework
document and whatever fails, if OBSERVE returns. -/
theorem collected_of_observe (hds : w.ctx.desiredState = some ds) (hf : ds.framework.isSome) {r : StageResult}
    (h : observeStage env w = (.ok r, w')) : r = none ∧ Collected env ds w w' :=
  (returns_observeStage hds hf).returned rfl h

end Observe

/-! ### Whatever fails -/

/-- What the call removes, if it removes anything, belongs to a service that is not desired. -/
def Attempt.RemovesOrphan (ds : DesiredState) (a : Attempt) : Prop :=
  match a.call with
  | .removeContainer id => ∀ c ∈ a.before.containers, c.id = id → isOrphan ds c.labels = true
  | .removeNetwork id => ∀ n ∈ a.before.networks, n.id = id → isOrphan ds n.labels = true
  | .removeVolume name => ∀ v ∈ a.before.volumes, v.name = name → isOrphan ds v.labels = true ∧ v.optsIn = true
  | _ => True

/-- The calls since `log` remove orphans. -/
def OrphansSince (ds : DesiredState) (log : List Attempt) (w : World) : Prop :=
  ∃ new, w.log = log ++ new ∧ ∀ a ∈ new, a.RemovesOrphan ds

section Orphans

variable {α β κ : Type} {S : Sweep α κ β} {env : Env} {ds : DesiredState} {log : List Attempt}

theorem OrphansSince.push {w w' : World} (h : OrphansSince ds log w) {a : Attempt} (ha : a.RemovesOrphan ds)
    (hlog : w'.log = w.log ++ [a]) : OrphansSince ds log w' := by
  obtain ⟨new, hnew, hall⟩ := h
  refine ⟨new ++ [a], by rw [hlog, hnew, List.append_assoc], fun b hb => ?_⟩
  rcases List.mem_append.mp hb with hb | hb
  · exact hall b hb
  · rwa [List.mem_singleton.mp hb]

/-- The objects that are to be removed are still what they were, as far as they exist. -/
def Unchanged (S : Sweep α κ β) (ds : DesiredState) (log : List Attempt) (todo : List α) (w : World) : Prop :=
  OrphansSince ds log w ∧ ∀ x ∈ todo, isOrphan ds (S.labels x) = true ∧ ∀ y ∈ S.view w.docker, S.key y = S.key x → y = x

/-- One removal, whether it fails, is done, or is done with its answer lost. -/
theorem orphans_removal {x : α} {todo : List α} {planId kind name : JsString} {removed : Obj Json}
    {f : Docker → Except JsError (Unit × Docker)} (hsub : ∀ d d', f d = .ok ((), d') → S.view d' ⊆ S.view d)
    (hcall : ∀ w, Unchanged S ds log (x :: todo) w → Attempt.RemovesOrphan ds ⟨.observe, w.docker, S.call x⟩) :
    Act.Triple (Unchanged S ds log (x :: todo))
      (issue env .observe (S.call x) f >>= fun _ => gcJournal planId kind name removed)
      (fun _ => Unchanged S ds log todo) fun _ => OrphansSince ds log := by
  refine Act.Triple.bind (Q := fun _ => Unchanged S ds log todo) ?_ fun _ => Act.Triple.modify fun w h => h
  intro w hw
  have hpush : ∀ w', w'.log = w.log ++ [⟨.observe, w.docker, S.call x⟩] → OrphansSince ds log w' :=
    fun w' hlog => hw.1.push (hcall w hw) hlog
  unfold issue
  simp only
  cases env.fault w.calls with
  | none =>
    cases hf : f w.docker with
    | error e => exact hpush _ rfl
    | ok r =>
      refine ⟨hpush _ rfl, fun y hy => ⟨(hw.2 y (by simp [hy])).1, fun z hz hkey => ?_⟩⟩
      exact (hw.2 y (by simp [hy])).2 z (hsub w.docker r.2 hf hz) hkey
  | some fault =>
    cases fault with
    | lost message => exact hpush _ rfl
    | late message => cases f w.docker <;> exact hpush _ rfl

/-- One of the three loops. -/
theorem orphans_sweep {body : α → M Unit} (hbody : ∀ x todo, Act.Triple (Unchanged S ds log (x :: todo)) (body x)
      (fun _ => Unchanged S ds log todo) fun _ => OrphansSince ds log) :
    Act.Triple (OrphansSince ds log)
      (query env (fun d => (S.view d).filter fun x => isManaged (S.labels x)) >>= fun xs =>
        Act.forEach (xs.filter fun x => isOrphan ds (S.labels x)) body)
      (fun _ => OrphansSince ds log) fun _ => OrphansSince ds log := by
  refine Act.Triple.bind (Q := fun xs => Unchanged S ds log (xs.filter fun x => isOrphan ds (S.labels x))) ?_ fun xs => ?_
  · intro w hw
    unfold query
    simp only
    cases env.fault w.calls with
    | none =>
      refine ⟨hw, fun x hx => ?_⟩
      obtain ⟨hx, horphan⟩ := List.mem_filter.mp hx
      exact ⟨horphan, fun y hy hkey => List.inj_on_of_nodup_map (S.nodup _) hy (List.mem_of_mem_filter hx) hkey⟩
    | some fault => cases fault <;> exact hw
  · exact (Act.Triple.forEachLeft hbody _).conseq (fun _ h => h) (fun _ _ h => h.1) fun _ _ h => h

/-- **Whatever OBSERVE removes is an orphan**, also when it fails on the way. -/
theorem orphans_observeBody (ds : DesiredState) (ctx : Ctx) : Act.Triple (OrphansSince ds log) (observeBody env ds ctx)
    (fun _ => OrphansSince ds log) fun _ => OrphansSince ds log := by
  have hremoved : ∀ {α β κ : Type} {S : Sweep α κ β} {x : α} {todo : List α} {w : World},
      Unchanged S ds log (x :: todo) w → ∀ y ∈ S.view w.docker, S.key y = S.key x → isOrphan ds (S.labels y) = true := by
    intro α β κ S x todo w h y hy hkey
    rw [(h.2 x (by simp)).2 y hy hkey]
    exact (h.2 x (by simp)).1
  refine Act.Triple.bind (Q := fun _ => OrphansSince ds log) ?_ fun _ =>
    Act.Triple.bind (Q := fun _ => OrphansSince ds log) ?_ fun _ =>
    Act.Triple.bind (Q := fun _ => OrphansSince ds log) ?_ fun _ => ?_
  · refine orphans_sweep (S := containerSweep ds) fun c todo => orphans_removal ?_ ?_
    · intro d d' h
      unfold Docker.removeContainer at h
      split at h <;> cases h
      exact List.filter_sublist.subset
    · exact fun w h c' hc' hid => hremoved h c' hc' hid
  · refine orphans_sweep (S := networkSweep ds) fun n todo => orphans_removal ?_ ?_
    · intro d d' h
      unfold Docker.removeNetwork at h
      split at h <;> cases h
      exact List.filter_sublist.subset
    · exact fun w h n' hn' hid => hremoved h n' hn' hid
  · refine orphans_sweep (S := volumeSweep ds) fun v todo => ?_
    split
    · rename_i hopt
      refine orphans_removal ?_ ?_
      · intro d d' h
        unfold Docker.removeVolume at h
        split at h <;> cases h
        exact List.filter_sublist.subset
      · intro w h v' hv' hname
        refine ⟨hremoved h v' hv' hname, ?_⟩
        rw [(h.2 v (by simp)).2 v' hv' hname]
        exact beq_iff_eq.mpr hopt
    · exact Act.Triple.modify fun w h => ⟨h.1, fun x hx => h.2 x (by simp [hx])⟩
  · refine Act.Triple.bind (Q := fun _ => OrphansSince ds log) ?_ fun remaining =>
      Act.Triple.bind (Q := fun _ => OrphansSince ds log) (Act.Triple.forEach fun s _ => ?_) fun _ =>
        Act.Triple.modify fun w h => h
    · intro w hw
      unfold query
      simp only
      cases env.fault w.calls with
      | none => exact hw
      | some fault => cases fault <;> exact hw
    · unfold writeStatus
      split
      · exact Act.Triple.throw fun _ h => h
      · exact Act.Triple.modify fun w h => h

end Orphans

/-! ### A removed service -/

/-- The labels of a managed object. -/
def managedLabels (serviceId : JsString) (optsIn : Bool) : Obj JsString :=
  [(js "wanfw.managed", js "true"), (js "wanfw.service", serviceId)] ++
    if optsIn then [(js "wanfw.removeVolumesOnDelete", js "true")] else []

/-- `blog` is desired, and nothing else. -/
def blogOnly : DesiredState where
  framework := some ⟨none, [], none, none⟩
  services := [⟨js "blog", none, none, .null, none⟩]
  errors := []
  nodup := List.nodup_singleton _

/-- A host with `blog`, the remains of `wiki` and a container of somebody else. -/
def wikiRemains : World :=
  { World.empty with
    docker := {
      containers := [⟨0, js "wanfw_blog", managedLabels (js "blog") false, none, [], js "running", []⟩,
        ⟨1, js "wanfw_wiki", managedLabels (js "wiki") false, none, [], js "running", []⟩,
        ⟨2, js "postgres", [], none, [], js "running", []⟩]
      networks := [⟨3, js "wanfw_svc_wiki", managedLabels (js "wiki") false, none⟩]
      volumes := [⟨js "pages", managedLabels (js "wiki") false⟩, ⟨js "cache", managedLabels (js "wiki") true⟩]
      nextId := 4
      ids_nodup := by simp
      ids_lt := by simp
      networks_nodup := by simp
      networks_lt := by simp
      volumes_nodup := by decide }
    status := [(js "wiki", .null)]
    ctx := { desiredState := some blogOnly } }

/-- The container, the network and the volume that opted in are gone. -/
theorem collected_wikiRemains :
    Collected Env.idle blogOnly wikiRemains (observeStage Env.idle wikiRemains).2 ∧
    (observeStage Env.idle wikiRemains).2.docker.containers.map (·.name) = [js "wanfw_blog", js "postgres"] ∧
    (observeStage Env.idle wikiRemains).2.docker.volumes.map (·.name) = [js "pages"] ∧
    Obj.keys (observeStage Env.idle wikiRemains).2.status = [js "blog"] := by
  have hok : (observeStage Env.idle wikiRemains).1 = .ok none := by decide +kernel
  have hrun : observeStage Env.idle wikiRemains = (.ok none, (observeStage Env.idle wikiRemains).2) := by
    rw [← hok]
  have hds : wikiRemains.ctx.desiredState = some blogOnly := rfl
  exact ⟨(collected_of_observe hds rfl hrun).2, by decide +kernel, by decide +kernel, by decide +kernel⟩

end Wanfw.Orchestrator
