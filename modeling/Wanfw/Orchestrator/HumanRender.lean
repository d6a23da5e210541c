import Wanfw.Orchestrator.Gate

/-!
# What the rendering of a plan says

`humanRender` of `reconciler/gate-stage.ts` writes the powerful fields of a plan one after the
other, with `"; "` between them. It quotes nothing: a bind mount whose target holds the text of
another mount is rendered as the two mounts are (`rendering_ambiguous`).

Behind the image the text is a list of parts, each opened by a fixed text. Where no field holds
an opener, and no bind source the words before a target, the text determines the parts
(`partsText_inj`) and so the powerful content of the plan (`samePowers_of_humanRender`).
-/

namespace Wanfw.Orchestrator

open Wanfw.Js Wanfw.Schemas

/-! ### The parts of a rendering -/

/-- A part behind the image. -/
inductive Part where
  | bind (m : BindMount)
  | device (device : JsString)
  | privileged
  | host
  | capability (cap : JsString)
  | port (port : Decimal)

/-- What opens a part, with the separator before it. -/
def Part.opener : Part → JsString
  | .bind _ => js "; bind mount "
  | .device _ => js "; device "
  | .privileged => js "; privileged: true"
  | .host => js "; network mode: host"
  | .capability _ => js "; capability "
  | .port _ => js "; publish port "

/-- The openers. -/
def openers : List JsString :=
  [js "; bind mount ", js "; device ", js "; privileged: true", js "; network mode: host", js "; capability ", js "; publish port "]

/-- The words between the source and the target of a mount, without the last space. -/
def accessWords (ro : Bool) : JsString := if ro then js " read-only at" else js " read-write at"

/-- What a part says. -/
def Part.body : Part → JsString
  | .bind m => m.source ++ (accessWords m.ro ++ (js " " ++ m.target))
  | .device d => d
  | .privileged => []
  | .host => []
  | .capability c => c
  | .port n => numberToString n

/-- The text of the parts. -/
def partsText (parts : List Part) : JsString := parts.flatMap fun p => p.opener ++ p.body

/-- The parts of a plan, in the order of `humanRender`. -/
def renderedParts (spec : ContainerSpec) : List Part :=
  spec.binds.map .bind ++ (spec.devices.getD []).map .device ++ (if spec.privileged = some true then [.privileged] else []) ++
    (if spec.isHost then [.host] else []) ++ (spec.capAdd.getD []).map .capability ++ (spec.ports.getD []).map .port

/-- A plan whose strings do not look like parts: no opener in the image, a bind target, a device or a capability, and no bind
source with the words that come before a target. -/
structure Unambiguous (spec : ContainerSpec) : Prop where
  image : FreeOf openers spec.image
  source : ∀ m ∈ spec.binds, FreeOf [accessWords true, accessWords false] m.source
  target : ∀ m ∈ spec.binds, FreeOf openers m.target
  device : ∀ d ∈ spec.devices.getD [], FreeOf openers d
  capability : ∀ c ∈ spec.capAdd.getD [], FreeOf openers c

theorem join_cons_flatMap (x : JsString) (xs : List JsString) (sep : JsString) :
    join (x :: xs) sep = x ++ xs.flatMap fun y => sep ++ y := by
  induction xs generalizing x with
  | nil => simp [join, List.intercalate]
  | cons y ys ih =>
    have hjoin : join (x :: y :: ys) sep = x ++ (sep ++ join (y :: ys) sep) := by simp [join, List.intercalate]
    rw [hjoin, ih, List.flatMap_cons, List.append_assoc]

/-- A part as `humanRender` pushes it. -/
def Part.shown : Part → JsString
  | .bind m => js "bind mount " ++ m.source ++ js " " ++ (if m.ro then js "read-only" else js "read-write") ++ js " at " ++ m.target
  | .device d => js "device " ++ d
  | .privileged => js "privileged: true"
  | .host => js "network mode: host"
  | .capability c => js "capability " ++ c
  | .port n => js "publish port " ++ numberToString n

theorem Part.separated (p : Part) : js "; " ++ p.shown = p.opener ++ p.body := by
  cases p with
  | bind m =>
    have hopen : js "; bind mount " = js "; " ++ js "bind mount " := by decide
    have hro : js " read-only at" ++ js " " = js " " ++ (js "read-only" ++ js " at ") := by decide
    have hrw : js " read-write at" ++ js " " = js " " ++ (js "read-write" ++ js " at ") := by decide
    rw [opener, body, shown, hopen, accessWords]
    cases m.ro with
    | true => simp only [if_true, List.append_assoc, ← List.append_assoc (js " read-only at"), hro]
    | false => simp only [Bool.false_eq_true, if_false, List.append_assoc, ← List.append_assoc (js " read-write at"), hrw]
  | device d => rfl
  | privileged => rfl
  | host => rfl
  | capability c => rfl
  | port n => rfl

theorem shown_binds (mounts : List MountSpec) :
    (mounts.flatMap fun m =>
      if m.type = .bind then
        [js "bind mount " ++ m.source ++ js " " ++
          (if m.readOnly = some true then js "read-only" else js "read-write") ++ js " at " ++ m.target]
      else []) =
    (((mounts.filter fun m => m.type = .bind).map fun m => (⟨m.source, m.target, m.readOnly.getD false⟩ : BindMount)).map
      Part.bind).map Part.shown := by
  induction mounts with
  | nil => rfl
  | cons m mounts ih =>
    rw [List.flatMap_cons, ih]
    by_cases hm : m.type = .bind
    · have hro : (m.readOnly.getD false = true) = (m.readOnly = some true) := by
        rcases m.readOnly with _ | _ | _ <;> simp
      simp [hm, Part.shown, hro]
    · simp [hm]

/-- The rendering is the image, and then the parts. -/
theorem humanRender_eq (spec : ContainerSpec) :
    humanRender spec = js "image: " ++ (spec.image ++ partsText (renderedParts spec)) := by
  have hlist : humanRender spec = join ((js "image: " ++ spec.image) :: (renderedParts spec).map Part.shown) (js "; ") := by
    have hif : ∀ (c : Prop) [Decidable c] (p : Part), (if c then [p] else []).map Part.shown = if c then [p.shown] else [] := by
      intro c _ p
      split <;> rfl
    unfold humanRender renderedParts
    rw [shown_binds]
    simp only [ContainerSpec.binds, List.map_append, hif, List.map_map, List.cons_append, List.nil_append]
    rfl
  rw [hlist, join_cons_flatMap, List.append_assoc, List.flatMap_map]
  simp only [Part.separated, partsText]

/-! ### Reading the parts back -/

theorem noOverlap_openers : NoOverlap openers := by decide +kernel

theorem noOverlap_accessWords : NoOverlap [accessWords true, accessWords false] := by decide +kernel

theorem Part.opener_mem (p : Part) : p.opener ∈ openers := by cases p <;> simp [opener, openers]

theorem startsOne_partsText (parts : List Part) : StartsOne openers (partsText parts) := by
  cases parts with
  | nil => exact .inl rfl
  | cons p parts =>
    refine .inr ⟨p.opener, p.opener_mem, ?_⟩
    rw [partsText, List.flatMap_cons, List.append_assoc]
    exact List.prefix_append _ _

theorem startsOne_accessWords (ro : Bool) (t : JsString) : StartsOne [accessWords true, accessWords false] (accessWords ro ++ t) :=
  .inr ⟨accessWords ro, by cases ro <;> simp, List.prefix_append _ _⟩

theorem accessWords_append_inj {ro ro' : Bool} {t t' : JsString} (h : accessWords ro ++ t = accessWords ro' ++ t') :
    ro = ro' ∧ t = t' := by
  have hwords : ∀ a b, accessWords a <+: accessWords b → a = b := by decide
  have hpre : accessWords ro <+: accessWords ro' ++ t' := h ▸ List.prefix_append _ _
  have hro : ro = ro' := by
    rcases List.prefix_or_prefix_of_prefix hpre (List.prefix_append _ _) with hpre | hpre
    · exact hwords _ _ hpre
    · exact (hwords _ _ hpre).symm
  rw [hro, List.append_cancel_left_eq] at h
  exact ⟨hro, h⟩

/-- The field of a part does not look like a part. -/
def Part.Plain : Part → Prop
  | .bind m => FreeOf [accessWords true, accessWords false] m.source ∧ FreeOf openers m.target
  | .device d => FreeOf openers d
  | .capability c => FreeOf openers c
  | _ => True

theorem freeOf_numberToString (n : Decimal) : FreeOf openers (numberToString n) := by
  intro d hd hin
  have hsemi : ∀ d ∈ openers, (59 : UInt16) ∈ d := by decide
  exact absurd (isNumeral_numberToString n 59 (hin.subset (hsemi d hd))) (by decide)

/-- The opener tells which part it is, and the rest of the text is determined. -/
theorem Part.append_inj {p q : Part} {r r' : JsString} (hp : p.Plain) (hq : q.Plain) (hr : StartsOne openers r)
    (hr' : StartsOne openers r') (h : p.opener ++ p.body ++ r = q.opener ++ q.body ++ r') : p = q ∧ r = r' := by
  have hopener : p.opener = q.opener := by
    have hunique : ∀ d ∈ openers, ∀ d' ∈ openers, d <+: d' → d = d' := by decide +kernel
    rw [List.append_assoc, List.append_assoc] at h
    have hp' : p.opener <+: q.opener ++ (q.body ++ r') := h ▸ List.prefix_append _ _
    rcases List.prefix_or_prefix_of_prefix hp' (List.prefix_append _ _) with hpre | hpre
    · exact hunique _ p.opener_mem _ q.opener_mem hpre
    · exact (hunique _ q.opener_mem _ p.opener_mem hpre).symm
  rw [hopener, List.append_assoc, List.append_assoc, List.append_cancel_left_eq] at h
  have hfield : ∀ {s s' : JsString}, FreeOf openers s → FreeOf openers s' → s ++ r = s' ++ r' → s = s' ∧ r = r' :=
    fun hs hs' => append_inj_of_delimited noOverlap_openers hs hs' hr hr'
  cases p with
  | bind m =>
    cases q with
    | bind m' =>
      simp only [body, List.append_assoc] at h
      obtain ⟨hsource, h⟩ := append_inj_of_delimited noOverlap_accessWords hp.1 hq.1 (startsOne_accessWords _ _)
        (startsOne_accessWords _ _) h
      obtain ⟨hro, h⟩ := accessWords_append_inj h
      rw [List.append_cancel_left_eq] at h
      obtain ⟨htarget, hrest⟩ := hfield hp.2 hq.2 h
      refine ⟨congrArg Part.bind ?_, hrest⟩
      cases m
      cases m'
      simp_all
    | _ => simp +decide [opener] at hopener
  | device d =>
    cases q with
    | device d' =>
      obtain ⟨rfl, hrest⟩ := hfield hp hq h
      exact ⟨rfl, hrest⟩
    | _ => simp +decide [opener] at hopener
  | privileged =>
    cases q with
    | privileged => exact ⟨rfl, h⟩
    | _ => simp +decide [opener] at hopener
  | host =>
    cases q with
    | host => exact ⟨rfl, h⟩
    | _ => simp +decide [opener] at hopener
  | capability c =>
    cases q with
    | capability c' =>
      obtain ⟨rfl, hrest⟩ := hfield hp hq h
      exact ⟨rfl, hrest⟩
    | _ => simp +decide [opener] at hopener
  | port n =>
    cases q with
    | port n' =>
      obtain ⟨hport, hrest⟩ := hfield (freeOf_numberToString n) (freeOf_numberToString n') h
      exact ⟨congrArg Part.port (numberToString_inj hport), hrest⟩
    | _ => simp +decide [opener] at hopener

/-- **The text determines the parts.** -/
theorem partsText_inj {ps qs : List Part} (hp : ∀ p ∈ ps, p.Plain) (hq : ∀ q ∈ qs, q.Plain) (h : partsText ps = partsText qs) :
    ps = qs := by
  have hne : ∀ (p : Part) (ps : List Part), partsText (p :: ps) ≠ [] := by
    intro p ps
    cases p <;> exact List.cons_ne_nil _ _
  induction ps generalizing qs with
  | nil =>
    cases qs with
    | nil => rfl
    | cons q qs => exact absurd h.symm (hne q qs)
  | cons p ps ih =>
    cases qs with
    | nil => exact absurd h (hne p ps)
    | cons q qs =>
      rw [List.forall_mem_cons] at hp hq
      obtain ⟨rfl, hrest⟩ := Part.append_inj hp.1 hq.1 (startsOne_partsText ps) (startsOne_partsText qs) h
      rw [ih hp.2 hq.2 hrest]

/-! ### What the parts say -/

theorem plain_renderedParts {spec : ContainerSpec} (h : Unambiguous spec) : ∀ p ∈ renderedParts spec, p.Plain := by
  intro p hp
  simp only [renderedParts, List.mem_append, List.mem_map] at hp
  rcases hp with ((((⟨m, hm, rfl⟩ | ⟨d, hd, rfl⟩) | hp) | hp) | ⟨c, hc, rfl⟩) | ⟨n, -, rfl⟩
  · exact ⟨h.source m hm, h.target m hm⟩
  · exact h.device d hd
  · split at hp
    · rw [List.mem_singleton.mp hp]
      trivial
    · cases hp
  · split at hp
    · rw [List.mem_singleton.mp hp]
      trivial
    · cases hp
  · exact h.capability c hc
  · trivial

/-- The bind mount of a part. -/
def Part.toBind : Part → Option BindMount
  | .bind m => some m
  | _ => none

/-- The device of a part. -/
def Part.toDevice : Part → Option JsString
  | .device d => some d
  | _ => none

/-- The capability of a part. -/
def Part.toCapability : Part → Option JsString
  | .capability c => some c
  | _ => none

/-- The port of a part. -/
def Part.toPort : Part → Option Decimal
  | .port n => some n
  | _ => none

section

variable (spec : ContainerSpec)

theorem filterMap_renderedParts {β : Type} (f : Part → Option β) : (renderedParts spec).filterMap f =
    spec.binds.filterMap (fun m => f (.bind m)) ++ (spec.devices.getD []).filterMap (fun d => f (.device d)) ++
      (if spec.privileged = some true then [Part.privileged] else []).filterMap f ++
      (if spec.isHost then [Part.host] else []).filterMap f ++ (spec.capAdd.getD []).filterMap (fun c => f (.capability c)) ++
      (spec.ports.getD []).filterMap fun n => f (.port n) := by
  unfold renderedParts
  simp only [List.filterMap_append, List.filterMap_map]
  rfl

theorem binds_renderedParts : (renderedParts spec).filterMap Part.toBind = spec.binds := by
  rw [filterMap_renderedParts]
  split <;> split <;> simp [Part.toBind, List.filterMap_none, List.filterMap_cons]

theorem devices_renderedParts : (renderedParts spec).filterMap Part.toDevice = spec.devices.getD [] := by
  rw [filterMap_renderedParts]
  split <;> split <;> simp [Part.toDevice, List.filterMap_none, List.filterMap_cons]

theorem capabilities_renderedParts : (renderedParts spec).filterMap Part.toCapability = spec.capAdd.getD [] := by
  rw [filterMap_renderedParts]
  split <;> split <;> simp [Part.toCapability, List.filterMap_none, List.filterMap_cons]

theorem ports_renderedParts : (renderedParts spec).filterMap Part.toPort = spec.ports.getD [] := by
  rw [filterMap_renderedParts]
  split <;> split <;> simp [Part.toPort, List.filterMap_none, List.filterMap_cons]

theorem privileged_mem_renderedParts : Part.privileged ∈ renderedParts spec ↔ spec.privileged = some true := by
  unfold renderedParts
  split <;> split <;> simp_all

theorem host_mem_renderedParts : Part.host ∈ renderedParts spec ↔ spec.isHost = true := by
  unfold renderedParts
  split <;> split <;> simp_all

end

/-- Plans with the same image and the same parts ask for the same powers. -/
theorem samePowers_of_renderedParts {a b : ContainerSpec} (serviceId : JsString) (himage : a.image = b.image)
    (h : renderedParts a = renderedParts b) : SamePowers (projectionInputOf serviceId a) (projectionInputOf serviceId b) := by
  have hprivileged : a.privileged = some true ↔ b.privileged = some true := by
    rw [← privileged_mem_renderedParts, ← privileged_mem_renderedParts, h]
  have hhost : a.isHost = true ↔ b.isHost = true := by rw [← host_mem_renderedParts, ← host_mem_renderedParts, h]
  have htrue : ∀ x : Option Bool, x.getD false = true ↔ x = some true := by decide
  constructor
  · rfl
  · exact himage
  · rw [projectionInputOf, projectionInputOf, ← binds_renderedParts, ← binds_renderedParts b, h]
  · rw [projectionInputOf, projectionInputOf, ← devices_renderedParts, ← devices_renderedParts b, h]
  · rw [projectionInputOf, projectionInputOf, Bool.eq_iff_iff.mpr hhost]
  · exact Bool.eq_iff_iff.mpr (((htrue _).trans hprivileged).trans (htrue _).symm)
  · rw [projectionInputOf, projectionInputOf, ← capabilities_renderedParts, ← capabilities_renderedParts b, h]
  · rw [projectionInputOf, projectionInputOf, ← ports_renderedParts, ← ports_renderedParts b, h]

/-- **The rendering is faithful for unambiguous plans**: those with the same rendering ask for the same powers. -/
theorem samePowers_of_humanRender {a b : ContainerSpec} (serviceId : JsString) (ha : Unambiguous a) (hb : Unambiguous b)
    (h : humanRender a = humanRender b) : SamePowers (projectionInputOf serviceId a) (projectionInputOf serviceId b) := by
  rw [humanRender_eq, humanRender_eq, List.append_cancel_left_eq] at h
  obtain ⟨himage, hparts⟩ := append_inj_of_delimited noOverlap_openers ha.image hb.image (startsOne_partsText _)
    (startsOne_partsText _) h
  exact samePowers_of_renderedParts serviceId himage (partsText_inj (plain_renderedParts ha) (plain_renderedParts hb) hparts)

/-! ### An ambiguous rendering -/

/-- Bind mounts below `/mnt`, and any image. -/
def mntGrants : List Grant := [anyImage, ⟨js "docker.mount.bind", .obj [(js "paths", .arr [.str (js "/mnt/*")])]⟩]

/-- Two mounts, of `/mnt/a` and `/mnt/b`. -/
def twoMounts : ContainerSpec where
  image := js "blog"
  mounts := some [⟨.bind, js "/mnt/a", js "/a", none⟩, ⟨.bind, js "/mnt/b", js "/b", none⟩]

/-- One mount, at a target that reads like the rest of the other rendering. -/
def oneMount : ContainerSpec where
  image := js "blog"
  mounts := some [⟨.bind, js "/mnt/a", js "/a; bind mount /mnt/b read-write at /b", none⟩]

/-- The plan with one mount and the plan with two have the same rendering. -/
theorem rendering_ambiguous : ¬ ∀ (sha256 : List UInt8 → JsString) (serviceId : JsString) (a b : ContainerSpec) (grants : List Grant)
    (ra rb : ValidationResult), validateContainerSpec sha256 serviceId a grants = .ok ra → ra.ok = true →
    validateContainerSpec sha256 serviceId b grants = .ok rb → rb.ok = true → humanRender a = humanRender b →
    SamePowers (projectionInputOf serviceId a) (projectionInputOf serviceId b) := by
  intro h
  have hone : Accepted (js "blog") oneMount mntGrants := by
    refine violationsOf_ok_nil.mp ?_
    decide +kernel
  have htwo : Accepted (js "blog") twoMounts mntGrants := by
    refine violationsOf_ok_nil.mp ?_
    decide +kernel
  have hsame := h (fun _ => []) (js "blog") oneMount twoMounts mntGrants _ _ (ok_of_accepted hone) rfl (ok_of_accepted htwo) rfl
    (by decide +kernel)
  exact absurd hsame.mounts.length_eq (by decide)

/-- A plan with a read-only mount and a device says what it asks for. -/
theorem samePowers_of_humanRender_jellyfin : SamePowers (projectionInputOf (js "jellyfin") jellyfin)
    (projectionInputOf (js "jellyfin") { jellyfin with env := some [(js "TZ", js "UTC")] }) := by
  have hplain : ∀ env, Unambiguous { jellyfin with env := env } := by
    intro env
    constructor
    · exact (by decide +kernel : FreeOf openers jellyfin.image)
    · exact List.forall_mem_singleton.mpr (by decide +kernel)
    · exact List.forall_mem_singleton.mpr (by decide +kernel)
    · exact List.forall_mem_singleton.mpr (by decide +kernel)
    · exact List.forall_mem_nil _
  exact samePowers_of_humanRender _ (hplain none) (hplain _) (by decide +kernel)

end Wanfw.Orchestrator
