import Wanfw.Plugins.DeployDocker

/-!
# Whose volume is it

Named volumes need no grant: the check only asks that the name starts with
`wanfw_<serviceId>`. A name that passes belongs to the service alone if no other
service id passes with it and if it is none of the volumes of the framework's own
compose project.

The test has no separator after the id, so every nonempty prefix of what follows
`wanfw_` that is an id passes as well. `isolated_iff` says which names are left:
those of one-letter ids, followed by nothing or by a character that no id has.
-/

namespace Wanfw.Orchestrator

open Wanfw.Js

/-! ### Service ids -/

/-- `[a-z0-9]`. -/
def isAlnum (u : UInt16) : Bool := isLower u || isDigit u

/-- `[a-z0-9-]`. -/
def isIdUnit (u : UInt16) : Bool := isAlnum u || u == 45

/-- The envelope pattern `^[a-z0-9][a-z0-9-]*$` of document ids. -/
def validId : JsString → Bool
  | [] => false
  | u :: s => isAlnum u && s.all isIdUnit

theorem validId_all {s : JsString} (h : validId s = true) : ∀ u ∈ s, isIdUnit u = true := by
  cases s with
  | nil => simp
  | cons u s =>
    simp only [validId, Bool.and_eq_true, List.all_eq_true] at h
    simpa [isIdUnit, h.1] using h.2

/-- A longer string over the characters of ids is an id again. -/
theorem validId_append {s t : JsString} (hs : validId s = true) (ht : ∀ u ∈ t, isIdUnit u = true) :
    validId (s ++ t) = true := by
  cases s with
  | nil => cases hs
  | cons u s =>
    simp only [validId, List.cons_append, Bool.and_eq_true, List.all_eq_true, List.mem_append] at hs ⊢
    exact ⟨hs.1, fun v hv => hv.elim (hs.2 v) (ht v)⟩

theorem validId_take {s : JsString} (hs : validId s = true) {n : ℕ} (hn : 0 < n) : validId (s.take n) = true := by
  cases s with
  | nil => cases hs
  | cons u s =>
    obtain ⟨m, rfl⟩ : ∃ m, n = m + 1 := ⟨n - 1, by omega⟩
    simp only [validId, List.take_succ_cons, Bool.and_eq_true, List.all_eq_true] at hs ⊢
    exact ⟨hs.1, fun v hv => hs.2 v (List.mem_of_mem_take hv)⟩

/-! ### Names that pass for a service -/

section Volumes

variable (sha256 : List UInt8 → JsString)

/-- The check accepts a plan that mounts the volume `name` for the service `serviceId`. -/
def AcceptsVolume (serviceId name : JsString) : Prop :=
  ∃ spec grants result, validateContainerSpec sha256 serviceId spec grants = .ok result ∧ result.ok = true ∧
    ∃ m ∈ spec.mountList, m.type = .volume ∧ m.source = name

/-- The volume keys of `deploy/docker-compose.yml`. -/
def composeVolumeKeys : List JsString :=
  [js "wanfw_desired", js "wanfw_status", js "wanfw_staging", js "wanfw_bundles", js "wanfw_state", js "wanfw_secrets",
    js "wanfw_certs", js "wanfw_proxycfg", js "wanfw_rpc_status", js "wanfw_rpc_plugin", js "wanfw_tier1state"]

/-- The volumes of the compose project `wanfw`, as Docker names them. -/
def composeVolumes : List JsString := composeVolumeKeys.map fun key => js "wanfw_" ++ key

/-- The volume belongs to the service alone. -/
def Isolated (serviceId name : JsString) : Prop :=
  (∀ other, validId other = true → other ≠ serviceId → ¬ AcceptsVolume sha256 other name) ∧ name ∉ composeVolumes

/-- A plan for one volume, and the grant that lets every image through. -/
def volumePlan (name : JsString) : ContainerSpec :=
  { image := js "busybox", mounts := some [⟨.volume, name, js "/data", none⟩] }

theorem accepted_volumePlan (serviceId rest : JsString) :
    Accepted serviceId (volumePlan (volumeStem serviceId ++ rest)) [anyImage] where
  image := by rfl
  mounts := by
    intro m hm
    have : startsWith (volumeStem serviceId ++ rest) (volumeStem serviceId) = true := startsWith_iff.mpr ⟨rest, rfl⟩
    simp only [ContainerSpec.mountList, volumePlan, Option.getD_some, List.mem_singleton] at hm
    subst hm
    simp [checkMount, this]
  devices := by simp [volumePlan]
  networkMode := by rfl
  privileged := by rfl
  capAdd := by simp [volumePlan]
  ports := by rfl
  networks := by simp [volumePlan]

/-- A volume passes for a service exactly when its name has the service's prefix. -/
theorem acceptsVolume_iff (serviceId name : JsString) :
    AcceptsVolume sha256 serviceId name ↔ ∃ rest, name = volumeStem serviceId ++ rest := by
  constructor
  · rintro ⟨spec, grants, result, h, hok, m, hm, hv, rfl⟩
    exact (accepted_of_ok h hok).volume hm hv
  · rintro ⟨rest, rfl⟩
    exact ⟨_, _, _, ok_of_accepted (accepted_volumePlan serviceId rest), rfl, _, List.mem_singleton_self _, rfl, rfl⟩

/-- The compose volumes start with `wanfw_wanfw_`. -/
theorem composeVolumes_stem : ∀ v ∈ composeVolumes, ∃ rest, v = js "wanfw_w" ++ (97 :: rest) := by
  simp only [composeVolumes, composeVolumeKeys, List.map_cons, List.map_nil, List.forall_mem_cons]
  refine ⟨⟨_, rfl⟩, ⟨_, rfl⟩, ⟨_, rfl⟩, ⟨_, rfl⟩, ⟨_, rfl⟩, ⟨_, rfl⟩, ⟨_, rfl⟩, ⟨_, rfl⟩, ⟨_, rfl⟩, ⟨_, rfl⟩, ⟨_, rfl⟩, ?_⟩
  simp

/-- What follows the id in the name starts with no character of an id. -/
def Delimits (rest : JsString) : Prop := ∀ u ∈ rest.head?, isIdUnit u = false

/-- **Which names with a service's prefix are its own.** -/
theorem isolated_iff {serviceId : JsString} (hid : validId serviceId = true) (rest : JsString) :
    Isolated sha256 serviceId (volumeStem serviceId ++ rest) ↔ serviceId.length = 1 ∧ Delimits rest := by
  have hpos : 0 < serviceId.length := by
    cases serviceId with
    | nil => cases hid
    | cons u s => simp
  constructor
  · rintro ⟨hother, -⟩
    constructor
    · -- a shorter prefix of the id is another id
      by_contra hlen
      refine hother (serviceId.take 1) (validId_take hid one_pos) ?_ ?_
      · intro h
        have := congrArg List.length h
        rw [List.length_take] at this
        omega
      · rw [acceptsVolume_iff]
        refine ⟨serviceId.drop 1 ++ rest, ?_⟩
        rw [volumeStem, volumeStem, List.append_assoc, List.append_assoc, ← List.append_assoc (List.take 1 serviceId),
          List.take_append_drop]
    · -- a character of an id after the id makes a longer one
      intro u hu
      by_contra hne
      obtain ⟨tail, rfl⟩ : ∃ tail, rest = u :: tail := by
        cases rest with
        | nil => cases hu
        | cons v tail =>
          rw [List.head?_cons, Option.mem_some_iff] at hu
          exact ⟨tail, by rw [hu]⟩
      refine hother (serviceId ++ [u]) (validId_append hid (by simpa using hne)) (by simp) ?_
      rw [acceptsVolume_iff]
      exact ⟨tail, by simp [volumeStem]⟩
  · rintro ⟨hlen, hdel⟩
    obtain ⟨c, rfl⟩ := List.length_eq_one_iff.mp hlen
    constructor
    · intro other hvalid hne haccepts
      obtain ⟨tail, h⟩ := (acceptsVolume_iff sha256 other _).mp haccepts
      rw [volumeStem, volumeStem, List.append_assoc, List.append_assoc] at h
      have h' := List.append_cancel_left h
      rcases other with _ | ⟨d, _ | ⟨d', ds⟩⟩
      · cases hvalid
      · simp only [List.cons_append, List.nil_append, List.cons.injEq] at h'
        exact hne (by rw [h'.1])
      · simp only [List.cons_append, List.nil_append, List.cons.injEq] at h'
        have hd := validId_all hvalid d' (by simp)
        rw [hdel d' (by rw [h'.2]; rfl)] at hd
        cases hd
    · intro hmem
      obtain ⟨tail, h⟩ := composeVolumes_stem _ hmem
      rw [volumeStem, show js "wanfw_w" = js "wanfw_" ++ [119] from rfl, List.append_assoc, List.append_assoc] at h
      have h' := List.append_cancel_left h
      simp only [List.cons_append, List.nil_append, List.cons.injEq] at h'
      have := hdel 97 (by rw [h'.2]; rfl)
      cases this

/-- **When an accepted plan mounts only volumes of its own.** For every accepted plan: each
named volume belongs to the service alone exactly when the id has one character and the
name goes on, after `wanfw_<id>`, with nothing or with a character that no id has. -/
theorem volumes_isolated_iff {serviceId : JsString} (hid : validId serviceId = true) {spec : ContainerSpec}
    {grants : List Grant} {result : ValidationResult}
    (h : validateContainerSpec sha256 serviceId spec grants = .ok result) (hok : result.ok = true) :
    (∀ m ∈ spec.mountList, m.type = .volume → Isolated sha256 serviceId m.source) ↔
      ∀ m ∈ spec.mountList, m.type = .volume →
        serviceId.length = 1 ∧ Delimits (m.source.drop (volumeStem serviceId).length) := by
  refine forall_congr' fun m => forall_congr' fun hm => forall_congr' fun hv => ?_
  obtain ⟨rest, hrest⟩ := (accepted_of_ok h hok).volume hm hv
  rw [hrest, isolated_iff sha256 hid, List.drop_left]

end Volumes

/-- The service `a` with a volume `wanfw_a_data`. -/
theorem volumes_isolated_a_data :
    validId (js "a") = true ∧ Isolated (fun _ => []) (js "a") (js "wanfw_a_data") := by
  refine ⟨by decide, ?_⟩
  have hplan := accepted_volumePlan (js "a") (js "_data")
  refine (volumes_isolated_iff (fun _ => []) (by decide) (ok_of_accepted hplan) rfl).mpr ?_ _
    (List.mem_singleton_self _) rfl
  intro m hm _
  rw [List.mem_singleton.mp hm]
  refine ⟨rfl, fun u hu => ?_⟩
  cases hu
  rfl

/-- A deploy section with the volume `secrets`. -/
def secretsSection : Plugins.DeployDocker.DeployDockerConfig :=
  { image := js "busybox", mounts := some [.volume (js "secrets") (js "/data") none] }

/-- The service `wanfw` with a volume `secrets` mounts the framework's secrets store. -/
theorem volumes_not_isolated_secrets :
    validId (js "wanfw") = true ∧
    (∃ result, validateContainerSpec (fun _ => []) (js "wanfw")
      (Plugins.DeployDocker.planTask (js "wanfw") secretsSection) [anyImage] = .ok result ∧ result.ok = true) ∧
    (Plugins.DeployDocker.planTask (js "wanfw") secretsSection).mountList =
      [⟨.volume, js "wanfw_wanfw_secrets", js "/data", none⟩] ∧
    ¬ Isolated (fun _ => []) (js "wanfw") (js "wanfw_wanfw_secrets") := by
  refine ⟨by decide, ⟨_, ok_of_accepted (accepted_volumePlan (js "wanfw") (js "_secrets")), rfl⟩, rfl, ?_⟩
  rintro ⟨-, h⟩
  exact h (by decide)

end Wanfw.Orchestrator
