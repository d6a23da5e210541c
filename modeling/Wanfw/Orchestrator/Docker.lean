import Wanfw.Orchestrator.World

/-!
# The Docker client

`execute/docker-client.ts`: the seam over the Docker daemon. Every changing call
is recorded with the state of the daemon before it (`Attempt`), whether it then
succeeds, fails or is done with its answer lost.

The daemon follows the rules the client relies on: names of containers and of
networks are taken once, a volume that exists is left as it is and one that a new
container mounts is created without labels if it does not, a network has to exist
before a container is connected to it, and a container that shares the
host's or another container's network cannot be connected at all.

`Issues P m`: every changing call that `m` issues satisfies `P`, and `m` leaves the
context of the run alone.
-/

namespace Wanfw.Orchestrator

open Wanfw.Js

/-! ### Network namespaces -/

/-- What a container's processes see of the network. -/
inductive Namespace where
  /-- A network of this name. -/
  | network (name : JsString)
  | host
  /-- The namespace of another container. -/
  | container (ref : JsString)
  /-- No network. -/
  | isolated
  deriving DecidableEq

/-- What Docker makes of `HostConfig.NetworkMode`. -/
def namespaceOf : Option JsString → Namespace
  | none => .network (js "bridge")
  | some mode =>
    if mode = [] ∨ mode = js "default" then .network (js "bridge")
    else if mode = js "host" then .host
    else if mode = js "none" then .isolated
    else if startsWith mode (js "container:") then .container (mode.drop (js "container:").length)
    else .network mode

/-- `HostConfig.NetworkMode` of the create call. -/
def CreateContainerOptions.hostNetworkMode (o : CreateContainerOptions) : Option JsString :=
  o.networkMode.or o.primaryNetwork

/-- The networks a container is listed with right after its creation. -/
def initialNetworks (mode : Option JsString) : List JsString :=
  match namespaceOf mode with
  | .network name => [name]
  | .host => [js "host"]
  | .isolated => [js "none"]
  | .container _ => []

/-- A container in the host's or in another container's namespace. -/
def Container.sharesNamespace (c : Container) : Bool :=
  match namespaceOf c.networkMode with
  | .host | .container _ => true
  | _ => false

/-! ### The daemon -/

/-- `wanfw.managed=true`. -/
def isManaged (labels : Obj JsString) : Bool := Obj.get labels (js "wanfw.managed") == some (js "true")

namespace Docker

/-- The volumes with one more, unless there is one of that name. -/
def addVolume (volumes : List Volume) (name : JsString) (labels : Obj JsString) : List Volume :=
  if volumes.any fun v => v.name == name then volumes else volumes ++ [⟨name, labels⟩]

/-- The volumes once those that are mounted exist. -/
def mountVolumes (volumes : List Volume) (mounts : List MountSpec) : List Volume :=
  (mounts.filter fun m => m.type = .volume).foldl (fun vs m => addVolume vs m.source []) volumes

theorem nodup_addVolume {volumes : List Volume} (h : (volumes.map (·.name)).Nodup) (name : JsString)
    (labels : Obj JsString) : ((addVolume volumes name labels).map (·.name)).Nodup := by
  unfold addVolume
  split
  · exact h
  · rename_i hnew
    rw [List.map_append, List.nodup_append]
    refine ⟨h, List.nodup_singleton _, ?_⟩
    rintro n hn n' hn' rfl
    obtain ⟨v, hv, rfl⟩ := List.mem_map.mp hn
    rw [List.map_singleton, List.mem_singleton] at hn'
    exact hnew (List.any_eq_true.mpr ⟨v, hv, by simpa using hn'⟩)

theorem nodup_mountVolumes {volumes : List Volume} (h : (volumes.map (·.name)).Nodup) (mounts : List MountSpec) :
    ((mountVolumes volumes mounts).map (·.name)).Nodup := by
  unfold mountVolumes
  induction mounts.filter fun m => m.type = .volume generalizing volumes with
  | nil => exact h
  | cons m ms ih => exact ih (nodup_addVolume h m.source [])

/-- A new id is no id that was handed out. -/
theorem nodup_snoc_of_lt {α : Type} {xs : List α} {id : α → ℕ} {next : ℕ} (h : (xs.map id).Nodup)
    (hlt : ∀ x ∈ xs, id x < next) {x : α} (hx : id x = next) : ((xs ++ [x]).map id).Nodup := by
  rw [List.map_append, List.nodup_append]
  refine ⟨h, List.nodup_singleton _, ?_⟩
  rintro i hi j hj rfl
  obtain ⟨y, hy, rfl⟩ := List.mem_map.mp hi
  rw [List.map_singleton, List.mem_singleton, hx] at hj
  exact (hlt y hy).ne hj

/-- A container by name, among the managed ones. -/
def managedContainer (d : Docker) (name : JsString) : Option Container :=
  d.containers.find? fun c => c.name == name && isManaged c.labels

/-- A network by name, among the managed ones. -/
def managedNetwork (d : Docker) (name : JsString) : Option Network :=
  d.networks.find? fun n => n.name == name && isManaged n.labels

/-- A volume by name, among the managed ones. -/
def managedVolume (d : Docker) (name : JsString) : Option Volume :=
  d.volumes.find? fun v => v.name == name && isManaged v.labels

/-- Create a network whose name is free. -/
def createNetwork (d : Docker) (name : JsString) (labels : Obj JsString) (options : Option NetworkDriverOptions) :
    Except JsError (Unit × Docker) :=
  if d.networks.any fun n => n.name == name then
    .error (.error (js "network with name " ++ name ++ js " already exists"))
  else .ok ((), { d with
    networks := d.networks ++ [⟨d.nextId, name, labels, options⟩]
    nextId := d.nextId + 1
    ids_lt := fun c hc => Nat.lt_succ_of_lt (d.ids_lt c hc)
    networks_nodup := nodup_snoc_of_lt d.networks_nodup (fun n hn => d.networks_lt n hn) rfl
    networks_lt := by
      intro n hn
      rcases List.mem_append.mp hn with hn | hn
      · exact Nat.lt_succ_of_lt (d.networks_lt n hn)
      · rw [List.mem_singleton.mp hn]
        exact Nat.lt_succ_self _ })

/-- Create a volume, unless there is one of that name. -/
def createVolume (d : Docker) (name : JsString) (labels : Obj JsString) : Except JsError (Unit × Docker) :=
  .ok ((), { d with
    volumes := addVolume d.volumes name labels
    volumes_nodup := nodup_addVolume d.volumes_nodup name labels })

/-- The container a create call makes. -/
def newContainer (d : Docker) (o : CreateContainerOptions) : Container where
  id := d.nextId
  name := o.name
  labels := o.labels
  networkMode := o.hostNetworkMode
  networks := initialNetworks o.hostNetworkMode
  state := js "created"
  ports := o.ports.getD []

/-- Create a container whose name is free. The volumes it mounts are there afterwards. -/
def createContainer (d : Docker) (o : CreateContainerOptions) : Except JsError (Container × Docker) :=
  if d.containers.any fun c => c.name == o.name then
    .error (.error (js "Conflict. The container name \"/" ++ o.name ++ js "\" is already in use"))
  else .ok (d.newContainer o, { d with
    containers := d.containers ++ [d.newContainer o]
    volumes := mountVolumes d.volumes o.mounts
    nextId := d.nextId + 1
    ids_nodup := nodup_snoc_of_lt d.ids_nodup (fun c hc => d.ids_lt c hc) rfl
    ids_lt := by
      intro c hc
      rcases List.mem_append.mp hc with hc | hc
      · exact Nat.lt_succ_of_lt (d.ids_lt c hc)
      · rw [List.mem_singleton.mp hc]
        exact Nat.lt_succ_self _
    networks_lt := fun n hn => Nat.lt_succ_of_lt (d.networks_lt n hn)
    volumes_nodup := nodup_mountVolumes d.volumes_nodup o.mounts })

/-- Remove a container. -/
def removeContainer (d : Docker) (id : ℕ) : Except JsError (Unit × Docker) :=
  if d.containers.any fun c => c.id == id then
    .ok ((), { d with
      containers := d.containers.filter fun c => c.id != id
      ids_nodup := d.ids_nodup.sublist (List.filter_sublist.map _)
      ids_lt := fun c hc => d.ids_lt c (List.mem_of_mem_filter hc) })
  else .error (.error (js "No such container: " ++ natToString id))

/-- Change the containers, but no id. -/
def mapContainers (d : Docker) (f : Container → Container) (hf : ∀ c, (f c).id = c.id) : Docker :=
  { d with
    containers := d.containers.map f
    ids_nodup := by
      rw [List.map_map, show (fun c : Container => c.id) ∘ f = fun c => c.id from funext hf]
      exact d.ids_nodup
    ids_lt := by
      intro c hc
      obtain ⟨c', hc', rfl⟩ := List.mem_map.mp hc
      rw [hf]
      exact d.ids_lt c' hc' }

/-- Start a container. -/
def startContainer (d : Docker) (id : ℕ) : Except JsError (Unit × Docker) :=
  if d.containers.any fun c => c.id == id then
    .ok ((), d.mapContainers (fun c => if c.id = id then { c with state := js "running" } else c) (by
      intro c
      split <;> rfl))
  else .error (.error (js "No such container: " ++ natToString id))

/-- Connect a container to a network. -/
def connectNetwork (d : Docker) (id : ℕ) (network : JsString) : Except JsError (Unit × Docker) :=
  if !(d.networks.any fun n => n.name == network) then .error (.error (js "network " ++ network ++ js " not found"))
  else
    match d.containers.find? fun c => c.id == id with
    | none => .error (.error (js "No such container: " ++ natToString id))
    | some c =>
      if c.sharesNamespace then
        .error (.error (js "container sharing network namespace with another container or host cannot be connected"))
      else if network ∈ c.networks then
        .error (.error (js "endpoint with name " ++ c.name ++ js " already exists in network " ++ network))
      else .ok ((), d.mapContainers
        (fun c => if c.id = id then { c with networks := c.networks ++ [network] } else c) (by
          intro c
          split <;> rfl))

/-- Remove a network. -/
def removeNetwork (d : Docker) (id : ℕ) : Except JsError (Unit × Docker) :=
  if d.networks.any fun n => n.id == id then
    .ok ((), { d with
      networks := d.networks.filter fun n => n.id != id
      networks_nodup := d.networks_nodup.sublist (List.filter_sublist.map _)
      networks_lt := fun n hn => d.networks_lt n (List.mem_of_mem_filter hn) })
  else .error (.error (js "network " ++ natToString id ++ js " not found"))

/-- Remove a volume. -/
def removeVolume (d : Docker) (name : JsString) : Except JsError (Unit × Docker) :=
  if d.volumes.any fun v => v.name == name then
    .ok ((), { d with
      volumes := d.volumes.filter fun v => v.name != name
      volumes_nodup := d.volumes_nodup.sublist (List.filter_sublist.map _) })
  else .error (.error (js "get " ++ name ++ js ": no such volume"))

theorem mem_managedContainer {d : Docker} {name : JsString} {c : Container} (h : d.managedContainer name = some c) :
    c ∈ d.containers ∧ c.name = name := by
  refine ⟨List.mem_of_find?_eq_some h, ?_⟩
  have := List.find?_some h
  rw [Bool.and_eq_true, beq_iff_eq] at this
  exact this.1

/-- Two containers with one id are the same. -/
theorem eq_of_id {d : Docker} {c c' : Container} (hc : c ∈ d.containers) (hc' : c' ∈ d.containers) (h : c.id = c'.id) :
    c = c' :=
  List.inj_on_of_nodup_map d.ids_nodup hc hc' h

end Docker

/-! ### Calls -/

section Calls

variable (env : Env)

/-- A call that changes the daemon's state. -/
def issue {α : Type} (stage : Stage) (c : Call) (f : Docker → Except JsError (α × Docker)) : M α := fun w =>
  let issued := { w with calls := w.calls + 1, log := w.log ++ [⟨stage, w.docker, c⟩] }
  match env.fault w.calls, f w.docker with
  | some (.lost message), _ => (.error (.error message), issued)
  | some (.late message), .ok (_, d) => (.error (.error message), { issued with docker := d })
  | none, .ok (a, d) => (.ok a, { issued with docker := d })
  | _, .error e => (.error e, issued)

/-- A call that reads the daemon's state. -/
def query {α : Type} (f : Docker → α) : M α := fun w =>
  let asked := { w with calls := w.calls + 1 }
  match env.fault w.calls with
  | some (.lost message) | some (.late message) => (.error (.error message), asked)
  | none => (.ok (f w.docker), asked)

/-- `docker.exec`: its exit code and output. -/
def dockerExec (stage : Stage) (container : JsString) (cmd : List JsString) : M (ℤ × JsString) := do
  let w ← Act.get
  issue env stage (.exec container cmd) fun d =>
    if d.containers.any fun c => c.name == container then .ok (env.execAnswer w.calls, d)
    else .error (.error (js "No such container: " ++ container))

end Calls

/-! ### What a call does if it returns -/

section Returns

variable {α : Type} {env : Env} {stage : Stage} {c : Call} {P : World → Prop} {Q : α → World → Prop}

/-- A changing call that returns was done. -/
theorem returns_issue {f : Docker → Except JsError (α × Docker)}
    (h : ∀ w a d, P w → f w.docker = .ok (a, d) →
      Q a { w with calls := w.calls + 1, log := w.log ++ [⟨stage, w.docker, c⟩], docker := d }) :
    Act.Returns P (issue env stage c f) Q := by
  intro w hw
  unfold issue
  simp only
  cases hfault : env.fault w.calls with
  | none =>
    cases hf : f w.docker with
    | error e => trivial
    | ok r => exact h w r.1 r.2 hw hf
  | some fault =>
    cases fault with
    | lost message => trivial
    | late message => cases f w.docker <;> trivial

/-- A reading call that returns answers from the state. -/
theorem returns_query {f : Docker → α} (h : ∀ w, P w → Q (f w.docker) { w with calls := w.calls + 1 }) :
    Act.Returns P (query env f) Q := by
  intro w hw
  unfold query
  simp only
  cases hfault : env.fault w.calls with
  | none => exact h w hw
  | some fault => cases fault <;> trivial

end Returns

/-! ### Which calls an action issues -/

/-- Since `log` and `ctx`, only calls with `P` were issued and the context is the same. -/
def IssuedSince (P : Attempt → Prop) (log : List Attempt) (ctx : Ctx) (w : World) : Prop :=
  (∃ new, w.log = log ++ new ∧ ∀ a ∈ new, P a) ∧ w.ctx = ctx

/-- Every changing call of `m` satisfies `P`, and `m` leaves the context alone. -/
def Issues {α : Type} (P : Attempt → Prop) (m : M α) : Prop :=
  ∀ log ctx, Act.Triple (IssuedSince P log ctx) m (fun _ => IssuedSince P log ctx) (fun _ => IssuedSince P log ctx)

section Issues

variable {α β : Type} {P : Attempt → Prop} {env : Env} {log : List Attempt} {ctx : Ctx} {w : World}

theorem IssuedSince.refl (P : Attempt → Prop) (w : World) : IssuedSince P w.log w.ctx w := ⟨⟨[], by simp, by simp⟩, rfl⟩

theorem IssuedSince.push (h : IssuedSince P log ctx w) {a : Attempt} (ha : P a) {w' : World}
    (hlog : w'.log = w.log ++ [a]) (hctx : w'.ctx = w.ctx) : IssuedSince P log ctx w' := by
  obtain ⟨⟨new, hnew, hP⟩, hc⟩ := h
  refine ⟨⟨new ++ [a], by rw [hlog, hnew, List.append_assoc], ?_⟩, hctx.trans hc⟩
  intro b hb
  rcases List.mem_append.mp hb with hb | hb
  · exact hP b hb
  · rwa [List.mem_singleton.mp hb]

theorem IssuedSince.same (h : IssuedSince P log ctx w) {w' : World} (hlog : w'.log = w.log) (hctx : w'.ctx = w.ctx) :
    IssuedSince P log ctx w' := by
  obtain ⟨⟨new, hnew, hP⟩, hc⟩ := h
  exact ⟨⟨new, hlog.trans hnew, hP⟩, hctx.trans hc⟩

theorem Issues.mono {Q : Attempt → Prop} {m : M α} (hPQ : ∀ a, P a → Q a) (h : Issues P m) : Issues Q m := by
  intro log ctx w hw
  have key := h w.log w.ctx w (IssuedSince.refl P w)
  have close : ∀ w', IssuedSince P w.log w.ctx w' → IssuedSince Q log ctx w' := by
    rintro w' ⟨⟨new', hnew', hP'⟩, hc'⟩
    obtain ⟨⟨new, hnew, hQ⟩, hc⟩ := hw
    refine ⟨⟨new ++ new', by rw [hnew', hnew, List.append_assoc], ?_⟩, hc'.trans hc⟩
    intro a ha
    rcases List.mem_append.mp ha with ha | ha
    · exact hQ a ha
    · exact hPQ a (hP' a ha)
  split at key
  · exact close _ key
  · exact close _ key

theorem Issues.pure (a : α) : Issues P (Pure.pure a : M α) := fun _ _ => Act.Triple.pure fun _ h => h

theorem Issues.bind {m : M α} {f : α → M β} (hm : Issues P m) (hf : ∀ a, Issues P (f a)) : Issues P (m >>= f) :=
  fun log ctx => Act.Triple.bind (hm log ctx) fun a => hf a log ctx

theorem Issues.throw (e : JsError) : Issues P (Act.throw e : M α) := fun _ _ => Act.Triple.throw fun _ h => h

theorem Issues.tryCatch {m : M α} {h : JsError → M α} (hm : Issues P m) (hh : ∀ e, Issues P (h e)) :
    Issues P (Act.tryCatch m h) :=
  fun log ctx => Act.Triple.tryCatch (hm log ctx) fun e => hh e log ctx

theorem Issues.forEach {xs : List β} {body : β → M Unit} (h : ∀ x ∈ xs, Issues P (body x)) :
    Issues P (Act.forEach xs body) :=
  fun log ctx => Act.Triple.forEach fun x hx => h x hx log ctx

theorem Issues.modify {f : World → World} (hlog : ∀ w, (f w).log = w.log) (hctx : ∀ w, (f w).ctx = w.ctx) :
    Issues P (Act.modify f) :=
  fun _ _ => Act.Triple.modify fun w h => h.same (hlog w) (hctx w)

theorem Issues.get : Issues P (Act.get : M World) := fun _ _ => Act.Triple.get fun _ h => h

theorem Issues.ofExcept (x : Except JsError α) : Issues P (Act.ofExcept x : M α) :=
  fun _ _ => Act.Triple.ofExcept (fun _ _ _ h => h) fun _ _ _ h => h

theorem Issues.journal (planId step : JsString) (payload result : Json) : Issues P (journal planId step payload result) :=
  Issues.modify (fun _ => rfl) fun _ => rfl

/-- A changing call with what it returns. -/
theorem issue_spec {stage : Stage} {c : Call} {f : Docker → Except JsError (α × Docker)} {A : World → Prop}
    {Q : α → World → Prop} (hP : ∀ w, A w → P ⟨stage, w.docker, c⟩)
    (hQ : ∀ w a d, A w → f w.docker = .ok (a, d) →
      Q a { w with calls := w.calls + 1, log := w.log ++ [⟨stage, w.docker, c⟩], docker := d }) (log : List Attempt)
    (ctx : Ctx) :
    Act.Triple (fun w => IssuedSince P log ctx w ∧ A w) (issue env stage c f)
      (fun a w => IssuedSince P log ctx w ∧ Q a w) (fun _ => IssuedSince P log ctx) := by
  rintro w ⟨h, hpre⟩
  have hp := hP w hpre
  unfold issue
  simp only
  cases hfault : env.fault w.calls with
  | none =>
    cases hf : f w.docker with
    | error e => exact h.push hp rfl rfl
    | ok r => exact ⟨h.push hp rfl rfl, hQ w r.1 r.2 hpre hf⟩
  | some fault =>
    cases fault with
    | lost message => exact h.push hp rfl rfl
    | late message =>
      cases hf : f w.docker with
      | error e => exact h.push hp rfl rfl
      | ok r => exact h.push hp rfl rfl

theorem Issues.issue {stage : Stage} {c : Call} {f : Docker → Except JsError (α × Docker)}
    (hP : ∀ d, P ⟨stage, d, c⟩) : Issues P (issue env stage c f) := by
  intro log ctx
  refine (issue_spec (A := fun _ => True) (Q := fun _ _ => True) (fun w _ => hP w.docker) (fun _ _ _ _ _ => trivial)
    log ctx).conseq (fun w h => ⟨h, trivial⟩) (fun _ _ h => h.1) fun _ _ h => h

/-- A reading call answers from the state, which stays. -/
theorem query_spec (f : Docker → α) (log : List Attempt) (ctx : Ctx) :
    Act.Triple (IssuedSince P log ctx) (query env f) (fun a w => IssuedSince P log ctx w ∧ a = f w.docker)
      (fun _ => IssuedSince P log ctx) := by
  intro w h
  unfold query
  simp only
  cases hfault : env.fault w.calls with
  | none => exact ⟨h.same rfl rfl, rfl⟩
  | some fault => cases fault <;> exact h.same rfl rfl

theorem Issues.query (f : Docker → α) : Issues P (query env f) := fun log ctx =>
  (query_spec f log ctx).conseq (fun _ h => h) (fun _ _ h => h.1) fun _ _ h => h

theorem Issues.dockerExec {stage : Stage} {container : JsString} {cmd : List JsString}
    (hP : ∀ d, P ⟨stage, d, .exec container cmd⟩) : Issues P (dockerExec env stage container cmd) :=
  Issues.get.bind fun _ => Issues.issue hP

/-- A call that was issued stays in the log. -/
theorem Issues.keeps {m : M α} (hm : Issues P m) (a : Attempt) :
    Act.Triple (fun w => a ∈ w.log) m (fun _ w => a ∈ w.log) (fun _ w => a ∈ w.log) := by
  intro w hw
  have key : ∀ w', IssuedSince P w.log w.ctx w' → a ∈ w'.log := by
    rintro w' ⟨⟨new, hnew, -⟩, -⟩
    rw [hnew]
    exact List.mem_append_left _ hw
  exact (hm w.log w.ctx).conseq (fun _ h => h) (fun _ _ => key _) (fun _ _ => key _) w (IssuedSince.refl P w)

/-- A call is in the log once it was issued, whether it failed or not. -/
theorem issue_logs {stage : Stage} {c : Call} {f : Docker → Except JsError (α × Docker)} :
    Act.Triple (fun _ => True) (issue env stage c f) (fun _ w => ∃ a ∈ w.log, a.call = c)
      (fun _ w => ∃ a ∈ w.log, a.call = c) := by
  intro w _
  have key : ∃ a ∈ w.log ++ [⟨stage, w.docker, c⟩], a.call = c :=
    ⟨⟨stage, w.docker, c⟩, List.mem_append_right _ (List.mem_singleton_self _), rfl⟩
  unfold issue
  simp only
  split <;> rename_i heq <;> split at heq <;> cases heq <;> exact key

end Issues

end Wanfw.Orchestrator
