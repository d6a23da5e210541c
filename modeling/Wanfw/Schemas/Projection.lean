import Wanfw.Js.Json
import Wanfw.Js.Arrays

/-!
# The powerful projection

`@wanfw/core-schemas`: canonical JSON (`canonical-json.ts`) and the projection of
a container plan to the fields that need an operator's approval
(`projection.ts`). The approval is keyed by the SHA-256 of the canonical JSON of
the projection. SHA-256 is a parameter: a function from bytes to the hexadecimal
digest.

## What is proved

* `projectionToCanonicalJSON_eq_iff`: two inputs have the same canonical JSON
  exactly when they agree field by field, the lists up to order.
* `computePowerfulProjectionHash_eq_iff`: the same for the hash, when it does not
  collide on the two texts.
-/

namespace Wanfw.Schemas

open Wanfw.Js

/-! ### Canonical JSON -/

/-- The members of an object in the order of their keys. -/
def membersInOrder (o : Obj Json) : Obj Json :=
  (sortStrings o.keys).filterMap fun k => (o.get k).map fun v => (k, v)

mutual

/-- `canonicalize`: the keys of every object in order. -/
def canonicalize : Json → Json
  | .arr xs => .arr (canonicalizeItems xs)
  | .obj o => .obj ((membersInOrder (canonicalizeMembers o)).foldl (fun out e => Obj.assign out e.1 e.2) [])
  | v => v

/-- `canonicalize` of the items of an array. -/
def canonicalizeItems : List Json → List Json
  | [] => []
  | x :: xs => canonicalize x :: canonicalizeItems xs

/-- `canonicalize` of the values of an object. -/
def canonicalizeMembers : List (JsString × Json) → List (JsString × Json)
  | [] => []
  | (k, x) :: o => (k, canonicalize x) :: canonicalizeMembers o

end

/-- `canonicalJSONStringify`. -/
def canonicalJSONStringify (v : Json) : JsString := stringify (canonicalize v)

theorem canonicalizeItems_eq_map (xs : List Json) : canonicalizeItems xs = xs.map canonicalize := by
  induction xs with
  | nil => rfl
  | cons x xs ih => rw [canonicalizeItems, ih, List.map_cons]

/-! ### Reading a canonical object -/

theorem get_canonicalizeMembers (o : Obj Json) (k : JsString) :
    Obj.get (canonicalizeMembers o) k = (Obj.get o k).map canonicalize := by
  induction o with
  | nil => rfl
  | cons e o ih =>
    rw [canonicalizeMembers, Obj.get_cons, Obj.get_cons, ih]
    split <;> rfl

/-- Assigning values of an object one after the other. -/
theorem get_foldl_assign {o : Obj Json} {k : JsString} (hk : k ≠ js "__proto__") (l acc : Obj Json)
    (hl : ∀ e ∈ l, Obj.get o e.1 = some e.2) :
    Obj.get (l.foldl (fun out e => Obj.assign out e.1 e.2) acc) k = if k ∈ l.map (·.1) then Obj.get o k else Obj.get acc k := by
  induction l generalizing acc with
  | nil => simp
  | cons e l ih =>
    rw [List.foldl_cons, ih _ fun e' he' => hl e' (List.mem_cons_of_mem _ he'), List.map_cons]
    by_cases hmem : k ∈ l.map (·.1)
    · rw [if_pos hmem, if_pos (List.mem_cons_of_mem _ hmem)]
    · rw [if_neg hmem]
      by_cases heq : k = e.1
      · subst heq
        rw [if_pos List.mem_cons_self, Obj.get_assign hk, if_pos rfl, hl e List.mem_cons_self]
      · rw [if_neg (by simp [heq, hmem]), Obj.assign]
        split
        · rfl
        · rw [Obj.get_setOwn, if_neg (Ne.symm heq)]

/-- A property of the canonical object is that of the object, made canonical. -/
theorem prop_canonicalize {k : JsString} (hk : k ≠ js "__proto__") (o : Obj Json) :
    (canonicalize (.obj o)).prop k = (Obj.get o k).map canonicalize := by
  have hget : ∀ e ∈ membersInOrder (canonicalizeMembers o), Obj.get (canonicalizeMembers o) e.1 = some e.2 := by
    intro e he
    obtain ⟨k', -, hk'⟩ := List.mem_filterMap.mp he
    obtain ⟨v, hv, rfl⟩ := Option.map_eq_some_iff.mp hk'
    exact hv
  rw [canonicalize, Json.prop, get_foldl_assign hk _ _ hget, get_canonicalizeMembers]
  split
  · rfl
  · rename_i hmem
    rw [Obj.get_nil]
    -- a key of the object would be among the sorted ones
    cases hv : Obj.get o k with
    | none => rfl
    | some v =>
      refine absurd ?_ hmem
      have hv' : Obj.get (canonicalizeMembers o) k = some (canonicalize v) := by rw [get_canonicalizeMembers, hv]; rfl
      have hkey : k ∈ Obj.keys (canonicalizeMembers o) := by
        by_contra hnot
        rw [Obj.get_eq_none hnot] at hv'
        cases hv'
      refine List.mem_map.mpr ⟨(k, canonicalize v), List.mem_filterMap.mpr ⟨k, ?_, by rw [hv']; rfl⟩, rfl⟩
      exact (sortBy_perm _ _).mem_iff.mpr hkey

/-! ### The projection -/

/-- A bind mount of the projection. -/
structure BindMount where
  source : JsString
  target : JsString
  ro : Bool
  deriving DecidableEq

/-- The input of the projection: the powerful fields of a container plan. -/
structure PowerfulProjectionInput where
  serviceId : JsString
  image : JsString
  /-- Bind mounts only. -/
  mounts : List BindMount
  devices : List JsString
  networkMode : Option JsString
  privileged : Bool
  capAdd : List JsString
  publishedPorts : List Decimal

/-- The projection has the fields of its input. -/
abbrev PowerfulProjection := PowerfulProjectionInput

/-- The comparator of `sortMounts`: by source, by target, then read-only first. -/
def compareMounts (a b : BindMount) : ℤ :=
  if a.source ≠ b.source then (if a.source < b.source then -1 else 1)
  else if a.target ≠ b.target then (if a.target < b.target then -1 else 1)
  else if a.ro = b.ro then 0
  else if a.ro then -1 else 1

/-- `sortMounts`. -/
def sortMounts (mounts : List BindMount) : List BindMount := sortBy compareMounts mounts

/-- `sortNumbers`: by the sign of `a - b`, which is exact for finite numbers. -/
def sortNumbers (values : List Decimal) : List Decimal := sortBy compareOrder values

/-- `buildPowerfulProjection`. -/
def buildPowerfulProjection (input : PowerfulProjectionInput) : PowerfulProjection where
  serviceId := input.serviceId
  image := input.image
  mounts := sortMounts input.mounts
  devices := sortStrings input.devices
  networkMode := input.networkMode
  privileged := input.privileged
  capAdd := sortStrings input.capAdd
  publishedPorts := sortNumbers input.publishedPorts

/-- A bind mount as a JSON value. -/
def BindMount.toJson (m : BindMount) : Json :=
  .obj [(js "source", .str m.source), (js "target", .str m.target), (js "ro", .bool m.ro)]

/-- `null`, or a string. -/
def nullable : Option JsString → Json
  | none => .null
  | some s => .str s

/-- The projection as a JSON value. -/
def PowerfulProjectionInput.toJson (p : PowerfulProjection) : Json :=
  .obj [(js "serviceId", .str p.serviceId), (js "image", .str p.image),
    (js "mounts", .arr (p.mounts.map BindMount.toJson)), (js "devices", .arr (p.devices.map .str)),
    (js "networkMode", nullable p.networkMode), (js "privileged", .bool p.privileged),
    (js "capAdd", .arr (p.capAdd.map .str)), (js "publishedPorts", .arr (p.publishedPorts.map .num))]

/-- `projectionToCanonicalJSON`. -/
def projectionToCanonicalJSON (input : PowerfulProjectionInput) : JsString :=
  canonicalJSONStringify (buildPowerfulProjection input).toJson

/-- `computePowerfulProjectionHash`. -/
def computePowerfulProjectionHash (sha256 : List UInt8 → JsString) (input : PowerfulProjectionInput) : JsString :=
  sha256 (utf8 (projectionToCanonicalJSON input))

/-! ### Sorting the parts -/

/-- The order of `sortMounts`. -/
def BindMount.key (m : BindMount) : JsString ×ₗ JsString ×ₗ Bool := toLex (m.source, toLex (m.target, !m.ro))

theorem BindMount.key_injective : Function.Injective BindMount.key := by
  rintro ⟨s, t, r⟩ ⟨s', t', r'⟩ h
  simpa [BindMount.key] using h

theorem compareMounts_le (a b : BindMount) : compareMounts a b ≤ 0 ↔ a.key ≤ b.key := by
  rw [BindMount.key, BindMount.key, Prod.Lex.toLex_le_toLex, Prod.Lex.toLex_le_toLex]
  unfold compareMounts
  by_cases hs : a.source = b.source
  · by_cases ht : a.target = b.target
    · cases ha : a.ro <;> cases hb : b.ro <;> simp [hs, ht]
    · rcases lt_or_gt_of_ne ht with h | h <;> simp [hs, ht, h, h.not_gt]
  · rcases lt_or_gt_of_ne hs with h | h <;> simp [hs, h, h.not_gt]

theorem sortMounts_eq_iff (xs ys : List BindMount) : sortMounts xs = sortMounts ys ↔ xs.Perm ys :=
  sortBy_eq_iff_perm BindMount.key_injective compareMounts_le xs ys

theorem sortNumbers_eq_iff (xs ys : List Decimal) : sortNumbers xs = sortNumbers ys ↔ xs.Perm ys :=
  sortBy_compareOrder_eq_iff xs ys

/-! ### The canonical form -/

theorem keys_canonicalizeMembers (o : Obj Json) : Obj.keys (canonicalizeMembers o) = Obj.keys o := by
  induction o with
  | nil => rfl
  | cons e o ih => simpa [canonicalizeMembers, Obj.keys] using ih

/-- An object whose keys are neither array indices nor `__proto__` is written in the order of its keys. -/
theorem canonicalize_obj {o o' : Obj Json} {ks : List JsString} (hkeys : Obj.keys o' = ks) (hnd : ks.Nodup)
    (hplain : ∀ k ∈ ks, arrayIndex k = none ∧ k ≠ js "__proto__")
    (hsort : sortStrings (Obj.keys o) = ks)
    (hget : (ks.filterMap fun k => (Obj.get (canonicalizeMembers o) k).map fun v => (k, v)) = o') :
    canonicalize (.obj o) = .obj o' := by
  subst hkeys
  rw [canonicalize, membersInOrder, keys_canonicalizeMembers, hsort, hget, Obj.foldl_assign_plain o' [] hnd hplain, List.nil_append]

/-- The keys of a bind mount, in order. -/
def mountKeys : List JsString := [js "ro", js "source", js "target"]

theorem canonicalize_bindMount (m : BindMount) :
    canonicalize m.toJson = .obj [(js "ro", .bool m.ro), (js "source", .str m.source), (js "target", .str m.target)] := by
  refine canonicalize_obj (rfl : _ = mountKeys) (by decide) (by decide)
    (show sortStrings [js "source", js "target", js "ro"] = _ by decide) ?_
  simp +decide [mountKeys, canonicalizeMembers, canonicalize, Obj.get_cons]

theorem canonicalizeItems_map {α : Type} (f : α → Json) (xs : List α) :
    canonicalizeItems (xs.map f) = xs.map fun x => canonicalize (f x) := by
  rw [canonicalizeItems_eq_map, List.map_map]
  rfl

theorem canonicalize_nullable (s : Option JsString) : canonicalize (nullable s) = nullable s := by
  cases s <;> rfl

/-- The keys of the projection, in order. -/
def projectionKeys : List JsString :=
  [js "capAdd", js "devices", js "image", js "mounts", js "networkMode", js "privileged", js "publishedPorts",
    js "serviceId"]

theorem canonicalize_projection (p : PowerfulProjection) :
    canonicalize p.toJson =
      .obj [(js "capAdd", .arr (p.capAdd.map .str)), (js "devices", .arr (p.devices.map .str)),
        (js "image", .str p.image), (js "mounts", .arr (p.mounts.map fun m => canonicalize m.toJson)),
        (js "networkMode", nullable p.networkMode), (js "privileged", .bool p.privileged),
        (js "publishedPorts", .arr (p.publishedPorts.map .num)), (js "serviceId", .str p.serviceId)] := by
  refine canonicalize_obj (rfl : _ = projectionKeys) (by decide) (by decide)
    (show sortStrings [js "serviceId", js "image", js "mounts", js "devices", js "networkMode", js "privileged",
      js "capAdd", js "publishedPorts"] = _ by decide) ?_
  simp +decide [projectionKeys, canonicalizeMembers, canonicalize, Obj.get_cons, canonicalizeItems_map, canonicalize_nullable]

theorem nullable_injective : Function.Injective nullable := by
  intro a b h
  cases a <;> cases b <;> simp_all [nullable]

theorem canonicalize_bindMount_injective : Function.Injective fun m : BindMount => canonicalize m.toJson := by
  rintro ⟨s, t, r⟩ ⟨s', t', r'⟩ h
  simp only [canonicalize_bindMount] at h
  simp_all

/-- The canonical form keeps every field of the projection. -/
theorem canonicalize_projection_inj {p q : PowerfulProjection} (h : canonicalize p.toJson = canonicalize q.toJson) :
    p = q := by
  have hstr : Function.Injective Json.str := fun a b h => by cases h; rfl
  have hnum : Function.Injective Json.num := fun a b h => by cases h; rfl
  rw [canonicalize_projection, canonicalize_projection] at h
  simp only [Json.obj.injEq, List.cons.injEq, Prod.mk.injEq, Json.arr.injEq, Json.str.injEq, Json.bool.injEq,
    true_and, and_true] at h
  obtain ⟨hcap, hdev, himg, hmnt, hnet, hpriv, hport, hid⟩ := h
  cases p
  cases q
  simp only [PowerfulProjectionInput.mk.injEq]
  exact ⟨hid, himg, canonicalize_bindMount_injective.list_map hmnt, hstr.list_map hdev, nullable_injective hnet, hpriv,
    hstr.list_map hcap, hnum.list_map hport⟩

/-! ### When two inputs have the same projection -/

/-- The two inputs ask for the same powers: equal fields, the lists up to order. -/
structure SamePowers (p q : PowerfulProjectionInput) : Prop where
  serviceId : p.serviceId = q.serviceId
  image : p.image = q.image
  mounts : p.mounts.Perm q.mounts
  devices : p.devices.Perm q.devices
  networkMode : p.networkMode = q.networkMode
  privileged : p.privileged = q.privileged
  capAdd : p.capAdd.Perm q.capAdd
  publishedPorts : p.publishedPorts.Perm q.publishedPorts

theorem buildPowerfulProjection_eq_iff (p q : PowerfulProjectionInput) :
    buildPowerfulProjection p = buildPowerfulProjection q ↔ SamePowers p q := by
  simp only [buildPowerfulProjection, PowerfulProjectionInput.mk.injEq, sortMounts_eq_iff, sortStrings_eq_iff,
    sortNumbers_eq_iff]
  constructor
  · rintro ⟨h1, h2, h3, h4, h5, h6, h7, h8⟩
    exact ⟨h1, h2, h3, h4, h5, h6, h7, h8⟩
  · rintro ⟨h1, h2, h3, h4, h5, h6, h7, h8⟩
    exact ⟨h1, h2, h3, h4, h5, h6, h7, h8⟩

theorem projectionToCanonicalJSON_eq_iff (p q : PowerfulProjectionInput) :
    utf8 (projectionToCanonicalJSON p) = utf8 (projectionToCanonicalJSON q) ↔ SamePowers p q := by
  rw [← buildPowerfulProjection_eq_iff]
  constructor
  · intro h
    exact canonicalize_projection_inj (utf8_stringify_inj h)
  · intro h
    rw [projectionToCanonicalJSON, h, projectionToCanonicalJSON]

/-- The test vector of the source. -/
example : projectionToCanonicalJSON
    { serviceId := js "jellyfin", image := js "jellyfin/jellyfin:10.9.11", mounts := [⟨js "/srv/media", js "/media", true⟩],
      devices := [js "/dev/dri/renderD128"], networkMode := none, privileged := false, capAdd := [],
      publishedPorts := [] } =
    js ("\x7b\"capAdd\":[],\"devices\":[\"/dev/dri/renderD128\"],\"image\":\"jellyfin/jellyfin:10.9.11\"," ++
      "\"mounts\":[\x7b\"ro\":true,\"source\":\"/srv/media\",\"target\":\"/media\"\x7d]," ++
      "\"networkMode\":null,\"privileged\":false,\"publishedPorts\":[],\"serviceId\":\"jellyfin\"\x7d") := by
  decide +kernel

/-- **The projection hash identifies the powers asked for**, where the hash does not
collide on the two texts. -/
theorem computePowerfulProjectionHash_eq_iff {sha256 : List UInt8 → JsString} {p q : PowerfulProjectionInput}
    (hsha : Set.InjOn sha256 {utf8 (projectionToCanonicalJSON p), utf8 (projectionToCanonicalJSON q)}) :
    computePowerfulProjectionHash sha256 p = computePowerfulProjectionHash sha256 q ↔ SamePowers p q := by
  rw [← projectionToCanonicalJSON_eq_iff]
  exact hsha.eq_iff (by simp) (by simp)

end Wanfw.Schemas
