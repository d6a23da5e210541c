import Wanfw.Js.Regex
import Wanfw.Orchestrator.Preserve

/-!
# Uninstalling

`wanfwctl uninstall` (`cli.ts`) and `POST /uninstall` (`admin-socket.ts`): a first request with
`dryRun` lists the managed containers and networks, and the managed volumes where the operator asked
for it. They are printed, and after a confirmation a second request removes what is then managed.

Any call to the daemon can fail, with or without having been done, either request can get lost or
stay unanswered, and anything may happen to the host between the two. `uninstall_removes`: nothing is
removed without a confirmation; with it, what goes is the first ones of the managed objects as they
are listed at that time, all of them if the command ends with 0, and nothing else changes but that a
container may have been stopped. What is not managed, and every volume that was not asked for, stays.
-/

namespace Wanfw.Wanfwctl

open Wanfw.Js Wanfw.Orchestrator

/-! ### The route -/

section Route

variable (env : Env)

/-- A call whose stage is none of a run's, so that it is in no run's log. -/
def call (f : Docker → Except JsError (Unit × Docker)) : M Unit := fun w =>
  let asked := { w with calls := w.calls + 1 }
  match env.fault w.calls, f w.docker with
  | some (.lost message), _ => (.error (.error message), asked)
  | some (.late message), .ok (_, d) => (.error (.error message), { asked with docker := d })
  | none, .ok (_, d) => (.ok (), { asked with docker := d })
  | _, .error e => (.error e, asked)

/-- `container.stop`. -/
def stopContainer (d : Docker) (id : ℕ) : Except JsError (Unit × Docker) :=
  if d.containers.any fun c => c.id == id then
    .ok ((), d.mapContainers (fun c => if c.id = id then { c with state := js "exited" } else c) (by
      intro c
      split <;> rfl))
  else .error (.error (js "No such container: " ++ natToString id))

/-- An object of the daemon. -/
inductive Target where
  | container (id : ℕ)
  | network (id : ℕ)
  | volume (name : JsString)
  deriving DecidableEq

/-- `removeContainer`, `removeNetwork` and `removeVolume` of the client. -/
def remove : Target → M Unit
  | .container id => do
    Act.tryCatch (call env fun d => stopContainer d id) fun _ => pure ()
    call env fun d => d.removeContainer id
  | .network id => call env fun d => d.removeNetwork id
  | .volume name => call env fun d => d.removeVolume name

/-- The body of the answer: names of containers, networks and volumes. -/
structure Listing where
  containers : List JsString
  networks : List JsString
  volumes : List JsString
  deriving DecidableEq

/-- `auditLog.append`, which can fail. -/
def appendAudit (auditFault : Option JsString) : M Unit :=
  match auditFault with
  | some message => Act.throw (.error message)
  | none => pure ()

/-- The three loops and the audit entry. -/
def removeAll (auditFault : Option JsString) (containers : List Container)
    (networks : List Network) (volumes : List Volume) : M Unit := do
  Act.forEach containers fun c => remove env (.container c.id)
  Act.forEach networks fun n => remove env (.network n.id)
  Act.forEach volumes fun v => remove env (.volume v.name)
  appendAudit auditFault

/-- `removeVolumes ? await deps.docker.listManagedVolumes() : []`. -/
def listVolumes (removeVolumes : Bool) : M (List Volume) :=
  if removeVolumes then query env fun d => d.volumes.filter fun v => isManaged v.labels else pure []

/-- `POST /uninstall`. -/
def uninstall (auditFault : Option JsString) (removeVolumes dryRun : Bool) : M Listing := do
  let containers ← query env fun d => d.containers.filter fun c => isManaged c.labels
  let networks ← query env fun d => d.networks.filter fun n => isManaged n.labels
  let volumes ← listVolumes env removeVolumes
  (if dryRun then pure () else removeAll env auditFault containers networks volumes)
  return ⟨containers.map (·.name), networks.map (·.name), volumes.map (·.name)⟩

end Route

/-! ### The command -/

/-- What becomes of a request. -/
inductive Transport where
  | answered
  /-- The socket cannot be reached. -/
  | lost
  /-- It is served, and the client gives up before the answer. -/
  | unanswered
  deriving DecidableEq

/-- `adminRequest`, for a route that answers 200 or throws. Nothing: `AdminSocketUnreachableError`. -/
def adminRequest {α : Type} (transport : Transport) (m : M α) (w : World) :
    Option (Except JsError α) × World :=
  match transport with
  | .answered => (some (m w).1, (m w).2)
  | .lost => (none, w)
  | .unanswered => (none, (m w).2)

/-- `EXIT_CODES`. -/
inductive ExitCode where
  | ok
  | internalError
  | daemonUnreachable
  deriving DecidableEq

/-- What the command meets. -/
structure Surroundings where
  /-- The daemon during the first request, and during the second. -/
  planEnv : Env
  env : Env
  plan : Transport
  request : Transport
  auditFault : Option JsString
  /-- What happens to the host between the requests. -/
  between : World → World
  /-- The operator's answer. -/
  answer : JsString

/-- `/^y(es)?$/i`. -/
def yesRe : Re := .seqs [.bol, .chrI 121, .opt (.litI (js "es")), .eol]

/-- What one execution of the command comes to. -/
structure Outcome where
  /-- The objects that were printed. -/
  printed : Option Listing
  /-- The operator confirmed, and the second request was made. -/
  confirmed : Bool
  exitCode : ExitCode
  /-- The host before the second request, and at the end. -/
  before : World
  world : World

/-- `uninstall [--remove-volumes] [--yes]`. -/
def uninstallCommand (removeVolumes yes : Bool) (s : Surroundings) (w : World) : Outcome :=
  let (planRes, w) := adminRequest s.plan (uninstall s.planEnv none removeVolumes true) w
  match planRes with
  | none => ⟨none, false, .daemonUnreachable, w, w⟩
  | some (.error _) => ⟨none, false, .internalError, w, w⟩
  | some (.ok plan) =>
    if plan.containers = [] ∧ plan.networks = [] ∧ plan.volumes = [] then ⟨none, false, .ok, w, w⟩
    else
      let w := s.between w
      if !yes && !yesRe.test (trim s.answer) then ⟨some plan, false, .ok, w, w⟩
      else
        let (res, w') := adminRequest s.request (uninstall s.env s.auditFault removeVolumes false) w
        match res with
        | none => ⟨some plan, true, .daemonUnreachable, w, w'⟩
        | some (.error _) => ⟨some plan, true, .internalError, w, w'⟩
        | some (.ok _) => ⟨some plan, true, .ok, w, w'⟩

/-! ### What is removed -/

/-- A container, whatever its state. -/
def shell (c : Container) : Container := { c with state := [] }

/-- The managed objects, in the order in which they are removed. -/
def managedTargets (removeVolumes : Bool) (d : Docker) : List Target :=
  (d.containers.filter fun c => isManaged c.labels).map (fun c => .container c.id) ++
    ((d.networks.filter fun n => isManaged n.labels).map (fun n => .network n.id) ++
      if removeVolumes then (d.volumes.filter fun v => isManaged v.labels).map fun v => .volume v.name else [])

/-- These objects of `d₀` are gone. Of the others, managed containers may have been stopped. -/
structure Gone (d₀ : Docker) (gone : List Target) (d : Docker) : Prop where
  containers : d.containers.map shell = (d₀.containers.map shell).filter fun c => .container c.id ∉ gone
  networks : d.networks = d₀.networks.filter fun n => .network n.id ∉ gone
  volumes : d.volumes = d₀.volumes.filter fun v => .volume v.name ∉ gone
  bystanders : ∀ c ∈ d₀.containers, isManaged c.labels = false → c ∈ d.containers

section Gone

variable {env : Env} {d₀ d d' : Docker} {gone : List Target} {id : ℕ} {t : Target}

theorem Gone.refl (d : Docker) : Gone d [] d := ⟨by simp, by simp, by simp, fun _ h _ => h⟩

/-- No bystander has this id. -/
def Target.IsManaged (d₀ : Docker) : Target → Prop
  | .container id => ∀ c ∈ d₀.containers, isManaged c.labels = false → c.id ≠ id
  | _ => True

theorem isManaged_of_mem {removeVolumes : Bool} (h : t ∈ managedTargets removeVolumes d₀) :
    t.IsManaged d₀ := by
  cases t with
  | network | volume => trivial
  | container id =>
    intro c hc hm hid
    simp only [managedTargets, List.mem_append, List.mem_map, List.mem_filter] at h
    rcases h with ⟨c', ⟨hc', hm'⟩, heq⟩ | ⟨n, -, heq⟩ | h
    · cases heq
      rw [Docker.eq_of_id hc hc' hid, hm'] at hm
      cases hm
    · cases heq
    · split at h
      · obtain ⟨v, -, heq⟩ := List.mem_map.mp h
        cases heq
      · cases h

/-- A container is stopped. -/
theorem Gone.stop (h : Gone d₀ gone d) (hid : Target.IsManaged d₀ (.container id))
    (hcall : stopContainer d id = .ok ((), d')) : Gone d₀ gone d' := by
  unfold stopContainer at hcall
  split at hcall <;> cases hcall
  refine ⟨?_, h.networks, h.volumes, fun c hc hm => ?_⟩
  · rw [← h.containers]
    change List.map shell (List.map _ _) = _
    rw [List.map_map]
    refine List.map_congr_left fun c _ => ?_
    by_cases hc : c.id = id <;> simp [hc, shell]
  · exact List.mem_map.mpr ⟨c, h.bystanders c hc hm, if_neg (hid c hc hm)⟩

theorem filter_notMem_concat {α : Type} {f : α → Target} {p : α → Bool} (xs : List α)
    (gone : List Target) (t : Target) (hp : ∀ x, p x = decide (f x ≠ t)) :
    (xs.filter fun x => f x ∉ gone).filter p = xs.filter fun x => f x ∉ gone ++ [t] := by
  rw [List.filter_filter]
  refine List.filter_congr fun x _ => ?_
  rw [hp]
  by_cases h : f x = t <;> simp [h]

/-- Objects of another kind. -/
theorem filter_notMem_other {α : Type} {f : α → Target} (xs : List α) (gone : List Target) (t : Target)
    (ht : ∀ x, f x ≠ t) : (xs.filter fun x => f x ∉ gone ++ [t]) = xs.filter fun x => f x ∉ gone :=
  List.filter_congr fun x _ => by simp [ht x]

/-- A call for one object. -/
def removal : Target → Docker → Except JsError (Unit × Docker)
  | .container id => fun d => d.removeContainer id
  | .network id => fun d => d.removeNetwork id
  | .volume name => fun d => d.removeVolume name

theorem Gone.removal (h : Gone d₀ gone d) (ht : t.IsManaged d₀) (hcall : removal t d = .ok ((), d')) :
    Gone d₀ (gone ++ [t]) d' := by
  cases t with
  | container id =>
    unfold Wanfwctl.removal Docker.removeContainer at hcall
    dsimp only at hcall
    split at hcall <;> cases hcall
    refine ⟨?_, ?_, ?_, fun c hc hm => ?_⟩
    · rw [← filter_notMem_concat (p := fun c => c.id != id) _ _ _ fun c => ?_, ← h.containers, List.filter_map]
      · rfl
      · by_cases hc : c.id = id <;> simp [hc]
    · rw [filter_notMem_other _ _ _ (by simp)]
      exact h.networks
    · rw [filter_notMem_other _ _ _ (by simp)]
      exact h.volumes
    · exact List.mem_filter.mpr ⟨h.bystanders c hc hm, by simpa using ht c hc hm⟩
  | network id =>
    unfold Wanfwctl.removal Docker.removeNetwork at hcall
    dsimp only at hcall
    split at hcall <;> cases hcall
    refine ⟨?_, ?_, ?_, h.bystanders⟩
    · rw [filter_notMem_other _ _ _ (by simp)]
      exact h.containers
    · rw [← filter_notMem_concat (p := fun n => n.id != id) _ _ _ fun n => ?_, ← h.networks]
      by_cases hn : n.id = id <;> simp [hn]
    · rw [filter_notMem_other _ _ _ (by simp)]
      exact h.volumes
  | volume name =>
    unfold Wanfwctl.removal Docker.removeVolume at hcall
    dsimp only at hcall
    split at hcall <;> cases hcall
    refine ⟨?_, ?_, ?_, h.bystanders⟩
    · rw [filter_notMem_other _ _ _ (by simp)]
      exact h.containers
    · rw [filter_notMem_other _ _ _ (by simp)]
      exact h.networks
    · rw [← filter_notMem_concat (p := fun v => v.name != name) _ _ _ fun v => ?_, ← h.volumes]
      by_cases hv : v.name = name <;> simp [hv]

/-- A call to the daemon that is done leaves `Q`, and one that is not leaves what was there. -/
theorem triple_call {f : Docker → Except JsError (Unit × Docker)} {P Q E : Docker → Prop}
    (hP : ∀ d, P d → E d) (hQ : ∀ d, Q d → E d) (h : ∀ d d', P d → f d = .ok ((), d') → Q d') :
    Act.Triple (fun w => P w.docker) (call env f) (fun _ w => Q w.docker) fun _ w => E w.docker := by
  intro w hw
  unfold call
  simp only
  rcases hcall : f w.docker with e | ⟨⟨⟩, d⟩
  · rcases env.fault w.calls with _ | message | message <;> exact hP _ hw
  · have hdone := h _ _ hw hcall
    rcases env.fault w.calls with _ | message | message
    · exact hdone
    · exact hP _ hw
    · exact hQ _ hdone

/-- **One object**: it goes, or the call fails. -/
theorem triple_remove (ht : t.IsManaged d₀) : Act.Triple (fun w => Gone d₀ gone w.docker) (remove env t)
    (fun _ w => Gone d₀ (gone ++ [t]) w.docker)
    fun _ w => Gone d₀ gone w.docker ∨ Gone d₀ (gone ++ [t]) w.docker := by
  have hremove : Act.Triple (fun w => Gone d₀ gone w.docker) (call env (removal t))
      (fun _ w => Gone d₀ (gone ++ [t]) w.docker)
      fun _ w => Gone d₀ gone w.docker ∨ Gone d₀ (gone ++ [t]) w.docker :=
    triple_call (E := fun d => Gone d₀ gone d ∨ Gone d₀ (gone ++ [t]) d) (fun _ => .inl) (fun _ => .inr)
      fun d d' hd hcall => hd.removal ht hcall
  cases t with
  | network | volume => exact hremove
  | container id =>
    refine Act.Triple.bind (Act.Triple.tryCatch (F := fun _ w => Gone d₀ gone w.docker) ?_
      fun _ => Act.Triple.pure fun _ h => h) fun _ => hremove
    exact triple_call (Q := Gone d₀ gone) (fun _ h => h) (fun _ h => h) fun d d' hd hcall =>
      hd.stop ht hcall

variable (env gone) in
/-- **A loop**: the objects go one after the other, until a call fails. -/
theorem triple_forEach {α : Type} {f : α → Target} (xs : List α) (hxs : ∀ x ∈ xs, (f x).IsManaged d₀) :
    Act.Triple (fun w => Gone d₀ gone w.docker) (Act.forEach xs fun x => remove env (f x))
      (fun _ w => Gone d₀ (gone ++ xs.map f) w.docker)
      fun _ w => ∃ k ≤ xs.length, Gone d₀ (gone ++ (xs.map f).take k) w.docker := by
  induction xs generalizing gone with
  | nil => exact Act.Triple.pure fun _ h => by simpa using h
  | cons x xs ih =>
    obtain ⟨hx, hxs⟩ := List.forall_mem_cons.mp hxs
    refine Act.Triple.bind ((triple_remove hx).conseq (fun _ h => h) (fun _ _ h => h) fun _ w h => ?_) fun _ =>
      (ih _ hxs).conseq (fun _ h => h) (fun _ w h => ?_) fun _ w h => ?_
    · rcases h with h | h
      · exact ⟨0, Nat.zero_le _, by simpa using h⟩
      · exact ⟨1, by simp, by simpa using h⟩
    · simpa using h
    · obtain ⟨k, hk, h⟩ := h
      exact ⟨k + 1, Nat.succ_le_succ hk, by simpa using h⟩

/-- The names of the managed objects. -/
def listing (removeVolumes : Bool) (d : Docker) : Listing where
  containers := (d.containers.filter fun c => isManaged c.labels).map (·.name)
  networks := (d.networks.filter fun n => isManaged n.labels).map (·.name)
  volumes := if removeVolumes then (d.volumes.filter fun v => isManaged v.labels).map (·.name) else []

/-- The three loops. -/
theorem triple_removeAll {containers : List Container} {networks : List Network} {volumes : List Volume}
    (htargets : ∀ t ∈ containers.map (fun c => Target.container c.id) ++ (networks.map (fun n => .network n.id) ++
      volumes.map fun v => .volume v.name), t.IsManaged d₀) {targets : List Target}
    (heq : containers.map (fun c => Target.container c.id) ++ (networks.map (fun n => .network n.id) ++
      volumes.map fun v => .volume v.name) = targets) (auditFault : Option JsString) :
    Act.Triple (fun w => Gone d₀ [] w.docker) (removeAll env auditFault containers networks volumes)
      (fun _ w => Gone d₀ targets w.docker) fun _ w => ∃ k, Gone d₀ (targets.take k) w.docker := by
  subst heq
  have haudit : ∀ gone, Act.Keeps (fun w => Gone d₀ gone w.docker) (appendAudit auditFault) := by
    intro gone
    unfold appendAudit
    split
    · exact .throw _
    · exact .pure _
  have hcontainers := triple_forEach env [] containers fun c hc =>
    htargets _ (List.mem_append_left _ (List.mem_map_of_mem hc))
  have hnetworks := triple_forEach env (containers.map fun c => Target.container c.id) networks fun n hn =>
    htargets _ (List.mem_append_right _ (List.mem_append_left _ (List.mem_map_of_mem hn)))
  have hvolumes := triple_forEach env
    (containers.map (fun c => Target.container c.id) ++ networks.map fun n => .network n.id) volumes fun v hv =>
    htargets _ (List.mem_append_right _ (List.mem_append_right _ (List.mem_map_of_mem hv)))
  refine Act.Triple.bind (hcontainers.conseq (fun _ h => h) (fun _ _ h => h) fun _ w h => ?_) fun _ =>
    Act.Triple.bind (hnetworks.conseq (fun _ h => h) (fun _ _ h => h) fun _ w h => ?_) fun _ =>
      Act.Triple.bind (hvolumes.conseq (fun _ h => h) (fun _ w h => by simpa using h) fun _ w h => ?_) fun _ =>
        Act.Triple.conseq (haudit _) (fun _ h => h) (fun _ _ h => h) fun _ w h =>
          ⟨containers.length + (networks.length + volumes.length),
            by rwa [List.take_of_length_le (by simp)]⟩
  · obtain ⟨k, hk, h⟩ := h
    refine ⟨k, ?_⟩
    rwa [List.take_append_of_le_length (by simpa using hk)]
  · obtain ⟨k, hk, h⟩ := h
    refine ⟨containers.length + k, ?_⟩
    rw [List.take_append, List.take_of_length_le (by simp), List.length_map, Nat.add_sub_cancel_left,
      List.take_append_of_le_length (by simpa using hk)]
    exact h
  · obtain ⟨k, hk, h⟩ := h
    refine ⟨containers.length + (networks.length + k), ?_⟩
    rw [List.take_append, List.take_of_length_le (by simp), List.length_map, Nat.add_sub_cancel_left,
      List.take_append, List.take_of_length_le (by simp), List.length_map, Nat.add_sub_cancel_left,
      ← List.append_assoc]
    exact h

/-- **The route.** A dry run changes nothing. Otherwise the managed objects go, or the first ones of
them. -/
theorem triple_uninstall (env : Env) (auditFault : Option JsString) (removeVolumes dryRun : Bool) (d₀ : Docker) :
    Act.Triple (fun w => w.docker = d₀) (uninstall env auditFault removeVolumes dryRun)
      (fun r w => r = listing removeVolumes d₀ ∧
        if dryRun then w.docker = d₀ else Gone d₀ (managedTargets removeVolumes d₀) w.docker)
      fun _ w =>
        if dryRun then w.docker = d₀ else ∃ k, Gone d₀ ((managedTargets removeVolumes d₀).take k) w.docker := by
  have hquery : ∀ {α : Type} (f : Docker → α), Act.Triple (fun w => w.docker = d₀) (query env f)
      (fun a w => w.docker = d₀ ∧ a = f d₀)
      fun _ w =>
        if dryRun then w.docker = d₀ else ∃ k, Gone d₀ ((managedTargets removeVolumes d₀).take k) w.docker := by
    intro α f
    refine (query_docker (I := fun d => d = d₀) f).conseq (fun _ h => h) (fun a w h => ⟨h.1, h.1 ▸ h.2⟩)
      fun _ w h => ?_
    cases dryRun
    · exact ⟨0, h ▸ Gone.refl _⟩
    · exact h
  unfold uninstall
  refine Act.Triple.bind (hquery _) fun containers => Act.Triple.assume (fun _ h => h.2) fun hcontainers => ?_
  refine Act.Triple.bind ((hquery _).conseq (fun _ h => h.1) (fun _ _ h => h) fun _ _ h => h) fun networks =>
    Act.Triple.assume (fun _ h => h.2) fun hnetworks => ?_
  refine Act.Triple.bind (Q := fun volumes (w : World) => w.docker = d₀ ∧
    volumes = if removeVolumes then d₀.volumes.filter fun v => isManaged v.labels else []) ?_ fun volumes =>
    Act.Triple.assume (fun _ h => h.2) fun hvolumes => ?_
  · cases removeVolumes
    · exact Act.Triple.pure fun _ h => ⟨h.1, rfl⟩
    · rw [listVolumes, if_pos rfl]
      exact (hquery _).conseq (fun _ h => h.1) (fun _ _ h => h) fun _ _ h => h
  have hlisting : (⟨containers.map (·.name), networks.map (·.name), volumes.map (·.name)⟩ : Listing) =
      listing removeVolumes d₀ := by
    rw [hcontainers, hnetworks, hvolumes, listing]
    cases removeVolumes <;> rfl
  cases dryRun
  · have htargets : containers.map (fun c => Target.container c.id) ++ (networks.map (fun n => .network n.id) ++
        volumes.map fun v => .volume v.name) = managedTargets removeVolumes d₀ := by
      rw [hcontainers, hnetworks, hvolumes, managedTargets]
      cases removeVolumes <;> rfl
    have hloops : Act.Triple _ (removeAll env auditFault containers networks volumes) _ _ :=
      triple_removeAll (fun t ht => isManaged_of_mem (htargets ▸ ht)) htargets auditFault
    exact Act.Triple.bind (hloops.conseq (fun w h => h.1 ▸ Gone.refl _) (fun _ _ h => h) fun _ _ h => h)
      fun _ => Act.Triple.pure fun _ h => ⟨hlisting, h⟩
  · exact Act.Triple.bind (Q := fun _ (w : World) => w.docker = d₀) (Act.Triple.pure fun _ h => h.1) fun _ =>
      Act.Triple.pure fun _ h => ⟨hlisting, h⟩

end Gone

/-! ### What the command does -/

/-- What the command owes the operator. -/
structure Outcome.Exact (removeVolumes yes : Bool) (s : Surroundings) (w : World) (o : Outcome) : Prop where
  /-- Only what was managed is printed. -/
  printed : ∀ plan, o.printed = some plan → plan = listing removeVolumes w.docker
  /-- Up to the second request the command itself has changed nothing. -/
  before : ∃ w', w'.docker = w.docker ∧ (o.before = w' ∨ o.before = s.between w')
  /-- Without a confirmation there is none. -/
  unconfirmed : o.confirmed = false → o.world = o.before
  confirmed : o.confirmed = true → o.printed ≠ none ∧ (yes = true ∨ yesRe.test (trim s.answer) = true)
  /-- What is gone is the first ones of the managed objects. -/
  removed : ∃ k, Gone o.before.docker ((managedTargets removeVolumes o.before.docker).take k) o.world.docker
  all : o.confirmed = true → o.exitCode = .ok →
    Gone o.before.docker (managedTargets removeVolumes o.before.docker) o.world.docker
  volumes : removeVolumes = false → o.world.docker.volumes = o.before.docker.volumes

/-- Without volumes among the targets, none goes. -/
theorem Gone.volumes_eq {d₀ d : Docker} {k : ℕ} (h : Gone d₀ ((managedTargets false d₀).take k) d) :
    d.volumes = d₀.volumes := by
  rw [h.volumes, List.filter_eq_self]
  intro v _
  rw [decide_eq_true_iff]
  intro hmem
  have hall := List.mem_of_mem_take hmem
  simp [managedTargets] at hall

/-- The first request. -/
theorem dry_request {env : Env} {removeVolumes : Bool} {transport : Transport} {w w' : World}
    {res : Option (Except JsError Listing)}
    (h : adminRequest transport (uninstall env none removeVolumes true) w = (res, w')) :
    w'.docker = w.docker ∧ ∀ r, res = some (.ok r) → r = listing removeVolumes w.docker := by
  have hroute := triple_uninstall env none removeVolumes true w.docker w rfl
  rcases hrun : uninstall env none removeVolumes true w with ⟨r, w''⟩
  rw [hrun] at hroute
  have hdocker : w''.docker = w.docker := by
    cases r
    · exact hroute
    · exact hroute.2
  unfold adminRequest at h
  rw [hrun] at h
  cases transport <;> cases h
  · refine ⟨hdocker, fun r' heq => ?_⟩
    cases heq
    exact hroute.1
  · exact ⟨rfl, nofun⟩
  · exact ⟨hdocker, nofun⟩

/-- The second one. -/
theorem real_request {env : Env} {auditFault : Option JsString} {removeVolumes : Bool}
    {transport : Transport} {w w' : World} {res : Option (Except JsError Listing)}
    (h : adminRequest transport (uninstall env auditFault removeVolumes false) w = (res, w')) :
    (∃ k, Gone w.docker ((managedTargets removeVolumes w.docker).take k) w'.docker) ∧
      ∀ r, res = some (.ok r) → Gone w.docker (managedTargets removeVolumes w.docker) w'.docker := by
  have hroute := triple_uninstall env auditFault removeVolumes false w.docker w rfl
  rcases hrun : uninstall env auditFault removeVolumes false w with ⟨r, w''⟩
  rw [hrun] at hroute
  have hsome : ∃ k, Gone w.docker ((managedTargets removeVolumes w.docker).take k) w''.docker := by
    cases r
    · exact hroute
    · exact ⟨(managedTargets removeVolumes w.docker).length, by rw [List.take_length]; exact hroute.2⟩
  unfold adminRequest at h
  rw [hrun] at h
  cases transport <;> cases h
  · refine ⟨hsome, fun r' heq => ?_⟩
    cases heq
    exact hroute.2
  · exact ⟨⟨0, Gone.refl _⟩, nofun⟩
  · exact ⟨hsome, nofun⟩

/-- **Uninstalling is exact.** Whatever calls fail, whatever becomes of the two requests and
whatever happens between them. -/
theorem uninstall_removes (removeVolumes yes : Bool) (s : Surroundings) (w : World) :
    (uninstallCommand removeVolumes yes s w).Exact removeVolumes yes s w := by
  unfold uninstallCommand
  -- the first request leaves the daemon as it is, whatever becomes of it
  rcases hfirst : adminRequest s.plan (uninstall s.planEnv none removeVolumes true) w with ⟨planRes, w₁⟩
  obtain ⟨hdocker, hlisting⟩ := dry_request hfirst
  -- an execution that ends before the second request
  have hends : ∀ printed exitCode w₂, (∀ plan, printed = some plan → plan = listing removeVolumes w.docker) →
      (w₂ = w₁ ∨ w₂ = s.between w₁) →
      Outcome.Exact removeVolumes yes s w ⟨printed, false, exitCode, w₂, w₂⟩ :=
    fun printed exitCode w₂ hprinted hw₂ =>
      ⟨hprinted, ⟨w₁, hdocker, hw₂⟩, fun _ => rfl, nofun, ⟨0, Gone.refl _⟩, nofun, fun _ => rfl⟩
  rcases planRes with _ | e | plan
  · exact hends _ _ _ nofun (.inl rfl)
  · exact hends _ _ _ nofun (.inl rfl)
  dsimp only
  split
  · exact hends _ _ _ nofun (.inl rfl)
  have hprinted : ∀ plan', some plan = some plan' → plan' = listing removeVolumes w.docker := by
    intro plan' heq
    cases heq
    exact hlisting plan rfl
  split
  · exact hends _ _ _ hprinted (.inr rfl)
  rename_i hconfirmed
  have hyes : yes = true ∨ yesRe.test (trim s.answer) = true := by
    cases yes
    · simpa using hconfirmed
    · exact .inl rfl
  rcases hsecond : adminRequest s.request (uninstall s.env s.auditFault removeVolumes false) (s.between w₁)
    with ⟨res, w₂⟩
  obtain ⟨hremoved, hall⟩ := real_request hsecond
  have hvolumes : removeVolumes = false → w₂.docker.volumes = (s.between w₁).docker.volumes := by
    rintro rfl
    obtain ⟨k, hk⟩ := hremoved
    exact hk.volumes_eq
  have hexact : ∀ exitCode, (exitCode = .ok → ∃ r, res = some (.ok r)) →
      Outcome.Exact removeVolumes yes s w ⟨some plan, true, exitCode, s.between w₁, w₂⟩ := fun exitCode hok =>
    ⟨hprinted, ⟨w₁, hdocker, .inr rfl⟩, nofun, fun _ => ⟨nofun, hyes⟩, hremoved,
      fun _ hexit => (hok hexit).elim fun r hr => hall r hr, hvolumes⟩
  rcases res with _ | e | r
  · exact hexact _ nofun
  · exact hexact _ nofun
  · exact hexact _ fun _ => ⟨r, rfl⟩

end Wanfw.Wanfwctl
