import Wanfw.Orchestrator.Gate
import Wanfw.Orchestrator.PathGlob

/-!
# Banners of catastrophic grants

VALIDATE compares canonical paths, `catastrophicBanners` compares the texts of the plan. The two
agree where a catastrophic path is written in its canonical form; another spelling of it
(`/var/run//docker.sock`) is accepted, and approved without the banner. `catastrophic_banner_iff`
is the exact condition.
-/

namespace Wanfw.Orchestrator

open Wanfw.Js Wanfw.Schemas

/-- `/var/run/docker.sock`. -/
def dockerSocket : JsString := js "/var/run/docker.sock"

/-- `/dev/mem`, or a disk. -/
def IsCatastrophicDevice (device : JsString) : Prop := device = js "/dev/mem" ∨ diskBlockDevice.test device = true

/-- A plan that is equivalent to root on the host, by what its paths canonicalise to. -/
inductive Catastrophic (spec : ContainerSpec) : Prop where
  | socket (m : MountSpec) (hm : m ∈ spec.mountList) (hbind : m.type = .bind)
      (h : canonicalizePath m.source = some dockerSocket)
  | device (device canonical : JsString) (hdevice : device ∈ spec.devices.getD [])
      (h : canonicalizePath device = some canonical) (hcanonical : IsCatastrophicDevice canonical)
  | privileged (h : spec.privileged = some true)
  | hostAdmin (hhost : spec.isHost = true) (hadmin : js "NET_ADMIN" ∈ spec.capAdd.getD [])

/-- The banner looks at what is catastrophic about a plan: it is so whatever its paths are, or one of its catastrophic paths
is written canonically, or none of its paths is catastrophic. -/
def SpelledOut (spec : ContainerSpec) : Prop :=
  spec.privileged = some true ∨ (spec.isHost = true ∧ js "NET_ADMIN" ∈ spec.capAdd.getD []) ∨
    (∃ m ∈ spec.mountList, m.type = .bind ∧ m.source = dockerSocket) ∨
    (∃ device ∈ spec.devices.getD [], IsCatastrophicDevice device) ∨
    ((∀ m ∈ spec.mountList, m.type = .bind → canonicalizePath m.source ≠ some dockerSocket) ∧
      ∀ device ∈ spec.devices.getD [], ∀ canonical, canonicalizePath device = some canonical → ¬ IsCatastrophicDevice canonical)

/-- The plan is gated with the banner. -/
def CarriesBanner (g : GatedService) : Prop := ∃ banner ∈ g.banners, startsWith banner catastrophicBanner = true

/-! ### The patterns of the banner are canonical -/

/-- An entry of `/dev` is its own canonical form. -/
theorem canonicalizePath_dev {name : JsString} (hname : Normal.IsName name) :
    canonicalizePath (js "/dev/" ++ name) = some (js "/dev/" ++ name) := by
  have hsegments : segments (js "/dev/" ++ name) = [js "dev", name] := by
    have hspell : js "/dev/" ++ name = spell [js "dev", name] := by
      simp [spell, join, List.intercalate, js, encode, utf16]
    rw [hspell]
    refine segments_spell fun s hs => ?_
    rcases List.mem_cons.mp hs with rfl | hs
    · decide
    · rw [List.mem_singleton.mp hs]
      exact ⟨hname.1, hname.2.2.2⟩
  refine canonicalizePath_iff.mpr ⟨⟨?_, ?_, ?_⟩, ?_⟩
  · exact startsWith_iff.mpr ⟨js "dev/" ++ name, rfl⟩
  · rw [hsegments]
    intro h
    rcases List.mem_cons.mp h with h | h
    · exact absurd h (by decide)
    · exact hname.2.2.1 (List.mem_singleton.mp h).symm
  · rw [hsegments]
    intro h
    rcases List.mem_cons.mp h with h | h
    · exact absurd h (by decide)
    · exact hname.2.1 (List.mem_singleton.mp h).symm
  · rw [hsegments]
    simp [spell, join, List.intercalate, js, encode, utf16]

/-- What the name of a disk is made of. -/
def DiskUnit (u : UInt16) : Prop := isLower u = true ∨ isDigit u = true

/-- A path that the pattern for disks accepts is an entry of `/dev`. -/
theorem eq_dev_of_disk {device : JsString} (h : diskBlockDevice.test device = true) :
    ∃ name, Normal.IsName name ∧ device = js "/dev/" ++ name := by
  obtain ⟨m, hm⟩ := List.exists_mem_of_ne_nil _ (Re.test_bol_iff.mp h)
  obtain ⟨m₁, h₁, m₂, h₂, -⟩ := Re.mem_run_seq.mp hm
  obtain ⟨m₃, h₃, m₄, h₄, -⟩ := Re.mem_run_seq.mp h₂
  obtain ⟨m₅, h₅, m₆, h₆, -⟩ := Re.mem_run_seq.mp h₄
  obtain ⟨m₇, h₇, -, -, -⟩ := Re.mem_run_seq.mp h₆
  obtain ⟨hdevice, -⟩ := Re.mem_run_lit.mp h₁
  have hlower : ∀ u, isLower u = true → DiskUnit u := fun _ => .inl
  have hdigit : ∀ u, isDigit u = true → DiskUnit u := fun _ => .inr
  have hlit : ∀ t ∈ ["sd", "nvme", "n", "vd", "xvd", "hd"], (Re.lit (js t)).Over DiskUnit := by
    intro t ht
    refine Re.over_lit fun u hu => ?_
    have hall : ∀ t ∈ ["sd", "nvme", "n", "vd", "xvd", "hd"], (js t).all isLower = true := by decide +kernel
    exact .inl (List.all_eq_true.mp (hall t ht) u hu)
  have hkind : ∀ u ∈ m₃.text, DiskUnit u := by
    refine Re.text_over ?_ h₃
    exact ⟨⟨hlit "sd" (by decide), hlower, hlower⟩,
      ⟨hlit "nvme" (by decide), ⟨hdigit, hdigit⟩, hlit "n" (by decide), ⟨hdigit, hdigit⟩, trivial⟩,
      ⟨hlit "vd" (by decide), hlower, hlower⟩, ⟨hlit "xvd" (by decide), hlower, hlower⟩, hlit "hd" (by decide), hlower, hlower⟩
  have hpart : ∀ u ∈ m₅.text, DiskUnit u := by
    refine Re.text_over ?_ h₅
    exact ⟨⟨hdigit, hdigit⟩, trivial⟩
  have hne : m₃.text ≠ [] := Re.text_ne_nil (by decide) h₃
  have hrest : m₁.rest = m₃.text ++ m₅.text := by
    rw [Re.text_append_rest h₃, Re.text_append_rest h₅, (Re.mem_run_eol.mp h₇).1, List.append_nil]
  have hname : ∀ u ∈ m₃.text ++ m₅.text, DiskUnit u := fun u hu => (List.mem_append.mp hu).elim (hkind u) (hpart u)
  have hforeign : ∀ u, u = 46 ∨ u = 47 → u ∉ m₃.text ++ m₅.text := by
    rintro u (rfl | rfl) hu <;> rcases hname _ hu with h | h <;> exact absurd h (by decide)
  refine ⟨m₃.text ++ m₅.text, ⟨List.append_ne_nil_of_left_ne_nil hne _, ?_, ?_, hforeign 47 (.inr rfl)⟩, ?_⟩
  · intro hdot
    exact hforeign 46 (.inl rfl) (by rw [hdot]; decide)
  · intro hdots
    exact hforeign 46 (.inl rfl) (by rw [hdots]; decide)
  · rw [hdevice, hrest]

theorem canonicalizePath_catastrophic {device : JsString} (h : IsCatastrophicDevice device) :
    canonicalizePath device = some device := by
  rcases h with rfl | hdisk
  · decide
  · obtain ⟨name, hname, rfl⟩ := eq_dev_of_disk hdisk
    exact canonicalizePath_dev hname

/-! ### When the banner is there -/

section Banner

variable {plan : ContainerSpec}

theorem catastrophicReasons_ne_nil_iff : catastrophicReasons plan ≠ [] ↔
    plan.privileged = some true ∨ (plan.isHost = true ∧ js "NET_ADMIN" ∈ plan.capAdd.getD []) ∨
      (∃ m ∈ plan.mountList, m.type = .bind ∧ m.source = dockerSocket) ∨
      ∃ device ∈ plan.devices.getD [], IsCatastrophicDevice device := by
  have hsocket : (plan.mountList.flatMap fun m =>
      if m.type = .bind ∧ m.source = js "/var/run/docker.sock" then [js "bind-mounts the Docker socket"] else []) ≠ [] ↔
      ∃ m ∈ plan.mountList, m.type = .bind ∧ m.source = dockerSocket := by
    simp [List.flatMap_eq_nil_iff, dockerSocket]
  have hdevice : ((plan.devices.getD []).flatMap fun device =>
      if device = js "/dev/mem" then [js "accesses /dev/mem (raw physical memory)"]
      else if diskBlockDevice.test device then [js "accesses raw disk block device " ++ device]
      else []) ≠ [] ↔ ∃ device ∈ plan.devices.getD [], IsCatastrophicDevice device := by
    rw [Ne, List.flatMap_eq_nil_iff]
    push Not
    refine exists_congr fun device => and_congr_right fun _ => ?_
    rw [IsCatastrophicDevice]
    split
    · simp_all
    · split <;> simp_all
  rw [catastrophicReasons, Ne, List.append_eq_nil_iff, List.append_eq_nil_iff, List.append_eq_nil_iff, not_and_or, not_and_or,
    not_and_or]
  have hprivileged : (if plan.privileged = some true then [js "runs privileged"] else []) ≠ [] ↔ plan.privileged = some true := by
    split <;> simp_all
  have hadmin : (if plan.isHost = true ∧ js "NET_ADMIN" ∈ plan.capAdd.getD [] then [js "host networking + NET_ADMIN"] else []) ≠ [] ↔
      plan.isHost = true ∧ js "NET_ADMIN" ∈ plan.capAdd.getD [] := by
    split <;> simp_all
  refine (or_congr (or_congr (or_congr hsocket hprivileged) hadmin) hdevice).trans ?_
  rw [or_assoc, or_assoc, or_left_comm]
  exact or_congr_right or_left_comm

theorem startsWith_catastrophicBanners : (∃ banner ∈ catastrophicBanners plan, startsWith banner catastrophicBanner = true) ↔
    catastrophicReasons plan ≠ [] := by
  rw [catastrophicBanners]
  cases catastrophicReasons plan with
  | nil => simp
  | cons reason reasons =>
    refine iff_of_true ⟨_, List.mem_singleton_self _, startsWith_iff.mpr ⟨_, List.append_assoc _ _ _⟩⟩ ?_
    exact List.cons_ne_nil _ _

variable {env : Env} {strict serviceId : JsString} {validation : Obj Classification} {g : GatedService}

theorem carriesBanner_iff (h : gateEntry env strict validation serviceId plan = some g) :
    CarriesBanner g ↔ catastrophicReasons plan ≠ [] := by
  have hbanners : g.banners = catastrophicBanners plan ++ if serviceId = js "tier1" then [selfExposureBanner] else [] := by
    rw [gateEntry] at h
    split at h
    · cases h
    · split at h
      · cases h
        rfl
      · cases h
  have hself : startsWith selfExposureBanner catastrophicBanner ≠ true := by decide +kernel
  rw [← startsWith_catastrophicBanners, CarriesBanner, hbanners]
  constructor
  · rintro ⟨banner, hmem, hstarts⟩
    rcases List.mem_append.mp hmem with hmem | hmem
    · exact ⟨banner, hmem, hstarts⟩
    · split at hmem
      · exact absurd (List.mem_singleton.mp hmem ▸ hstarts) hself
      · cases hmem
  · rintro ⟨banner, hmem, hstarts⟩
    exact ⟨banner, List.mem_append_left _ hmem, hstarts⟩

/-- What the banner looks at is catastrophic. -/
theorem catastrophic_of_reasons (h : catastrophicReasons plan ≠ []) : Catastrophic plan := by
  rcases catastrophicReasons_ne_nil_iff.mp h with h | ⟨hhost, hadmin⟩ | ⟨m, hm, hbind, hsource⟩ | ⟨device, hdevice, hcat⟩
  · exact .privileged h
  · exact .hostAdmin hhost hadmin
  · exact .socket m hm hbind (by rw [hsource]; decide)
  · exact .device device device hdevice (canonicalizePath_catastrophic hcat) hcat

/-- A catastrophic plan uses a powerful field. -/
theorem Catastrophic.isPowerful (h : Catastrophic plan) : plan.isPowerful = true := by
  by_contra hpowerful
  have hbaseline := baseline_of_not_powerful (Bool.eq_false_iff.mpr hpowerful)
  cases h with
  | socket m hm hbind _ => exact hbaseline.noBind m hm hbind
  | device device canonical hdevice _ _ =>
    rw [hbaseline.noDevice] at hdevice
    cases hdevice
  | privileged h => exact hbaseline.notPrivileged h
  | hostAdmin hhost _ => exact hbaseline.notHost (of_decide_eq_true hhost)

theorem spelledOut_iff : SpelledOut plan ↔ (Catastrophic plan → catastrophicReasons plan ≠ []) := by
  rw [catastrophicReasons_ne_nil_iff, SpelledOut]
  constructor
  · rintro (h | h | h | h | ⟨hsocket, hdevice⟩) hcat
    · exact .inl h
    · exact .inr (.inl h)
    · exact .inr (.inr (.inl h))
    · exact .inr (.inr (.inr h))
    · cases hcat with
      | socket m hm hbind h => exact absurd h (hsocket m hm hbind)
      | device device canonical hmem h hcanonical => exact absurd hcanonical (hdevice device hmem canonical h)
      | privileged h => exact .inl h
      | hostAdmin hhost hadmin => exact .inr (.inl ⟨hhost, hadmin⟩)
  · intro h
    by_cases hcat : Catastrophic plan
    · rcases h hcat with h | h | h | h
      · exact .inl h
      · exact .inr (.inl h)
      · exact .inr (.inr (.inl h))
      · exact .inr (.inr (.inr (.inl h)))
    · refine .inr (.inr (.inr (.inr ⟨fun m hm hbind hsource => ?_, fun device hmem canonical hcanonical hdevice => ?_⟩)))
      · exact hcat (.socket m hm hbind hsource)
      · exact hcat (.device device canonical hmem hcanonical hdevice)

/-- **When the banner says what VALIDATE saw.** For every accepted plan: a catastrophic plan is gated with the banner, and no
other plan is, exactly when what is catastrophic about it is spelled out. -/
theorem catastrophic_banner_iff {grants : List Grant} {result : ValidationResult}
    (hvalidate : validateContainerSpec env.sha256 serviceId plan grants = .ok result) (hok : result.ok = true)
    (hrecorded : Obj.get validation serviceId = some ⟨result.tier, result.projectionHash⟩) :
    ((Catastrophic plan → ∃ g, gateEntry env strict validation serviceId plan = some g ∧ CarriesBanner g) ∧
        ∀ g, gateEntry env strict validation serviceId plan = some g → ¬ Catastrophic plan → ¬ CarriesBanner g) ↔
      SpelledOut plan := by
  have htier : result.tier = if plan.isPowerful then .powerful else .baseline := by
    obtain ⟨violations, -, rfl⟩ := validateContainerSpec_eq hvalidate
    rfl
  have hgated : Catastrophic plan → ∃ g, gateEntry env strict validation serviceId plan = some g := by
    intro hcat
    rw [hcat.isPowerful, if_pos rfl] at htier
    rw [gateEntry, hrecorded]
    dsimp only
    rw [if_pos]
    · exact ⟨_, rfl⟩
    · left
      rw [gateTier]
      split
      · rfl
      · exact htier
  rw [spelledOut_iff]
  constructor
  · rintro ⟨h, -⟩ hcat
    obtain ⟨g, hentry, hcarries⟩ := h hcat
    exact (carriesBanner_iff hentry).mp hcarries
  · intro h
    refine ⟨fun hcat => ?_, fun g hentry hcat hcarries => ?_⟩
    · obtain ⟨g, hentry⟩ := hgated hcat
      exact ⟨g, hentry, (carriesBanner_iff hentry).mpr (h hcat)⟩
    · exact hcat (catastrophic_of_reasons ((carriesBanner_iff hentry).mp hcarries))

end Banner

/-- A plan that mounts the Docker socket under a source. -/
def socketPlan (source : String) : ContainerSpec where
  image := js "tools"
  mounts := some [⟨.bind, js source, js "/var/run/docker.sock", none⟩]

/-- The grants for it. -/
def socketGrants : List Grant := [anyImage, ⟨js "docker.mount.bind", .obj [(js "paths", .arr [.str dockerSocket])]⟩]

theorem accepted_socketPlan : validateContainerSpec (fun _ => []) (js "tools") (socketPlan "/var/run/docker.sock") socketGrants =
    .ok (resultOf (fun _ => []) (js "tools") (socketPlan "/var/run/docker.sock") []) := by
  rfl

/-- The socket under its own name has the banner. -/
theorem banner_socket : (Catastrophic (socketPlan "/var/run/docker.sock") →
      ∃ g, gateEntry Env.idle (js "powerful") [(js "tools", ⟨.powerful, some []⟩)] (js "tools")
        (socketPlan "/var/run/docker.sock") = some g ∧ CarriesBanner g) ∧
    ∀ g, gateEntry Env.idle (js "powerful") [(js "tools", ⟨.powerful, some []⟩)] (js "tools")
        (socketPlan "/var/run/docker.sock") = some g → ¬ Catastrophic (socketPlan "/var/run/docker.sock") →
      ¬ CarriesBanner g := by
  have hvalid : validateContainerSpec Env.idle.sha256 (js "tools") (socketPlan "/var/run/docker.sock") socketGrants =
      .ok (resultOf (fun _ => []) (js "tools") (socketPlan "/var/run/docker.sock") []) := accepted_socketPlan
  exact (catastrophic_banner_iff hvalid rfl rfl).mpr (.inr (.inr (.inl ⟨_, List.mem_singleton_self _, rfl, rfl⟩)))

/-- The socket with a second slash is accepted, gated, catastrophic and without the banner. -/
theorem socket_without_banner :
    ((validateContainerSpec (fun _ => []) (js "tools") (socketPlan "/var/run//docker.sock") socketGrants).map fun result =>
      result.ok) = .ok true ∧
    (gateEntry Env.idle (js "powerful") [(js "tools", ⟨.powerful, some []⟩)] (js "tools")
      (socketPlan "/var/run//docker.sock")).map (·.banners) = some [] ∧
    Catastrophic (socketPlan "/var/run//docker.sock") := by
  refine ⟨rfl, rfl, .socket _ (List.mem_singleton_self _) rfl ?_⟩
  decide

end Wanfw.Orchestrator
