import Mathlib.Data.Set.Basic
import Wanfw.Orchestrator.AuditLog
import Wanfw.Orchestrator.StateStore

/-!
# The trust flow

`trust/trust-flow.ts`: an operator trusts a bundle that was staged, or one that comes
with the plugin host, and takes trust back. Trusting writes one trust record and one
grant for every capability of the manifest, all signed; untrusting revokes the live
records of the plugin and then its live grants. Both return the writes they make, in
their order, so that a process can be stopped between any two of them.

What a sequence of calls should leave behind is `current`: the manifest of the most
recent trust call, unless an untrust followed it.
-/

namespace Wanfw.Orchestrator.TrustFlow

open Wanfw.Js StateStore

/-! ### Manifests -/

/-- `ManifestCapability`. -/
structure ManifestCapability where
  cap : JsString
  scope : Obj Json
  reason : JsString
  scope_proper : (Json.obj scope).Proper

/-- `Manifest`, as far as it is read here. -/
structure Manifest where
  id : JsString
  version : JsString
  types : List JsString
  configSchema : Option JsString
  capabilities : List ManifestCapability

/-- `StagedBundle`: a directory of the staging area, with its hash and its manifest if that is valid. -/
structure StagedBundle where
  dirName : JsString
  sha256 : JsString
  manifest : Option Manifest

/-- What `builtins.list` reports of a built-in. -/
structure Builtin where
  id : JsString
  version : JsString
  manifest : Manifest
  sha256 : JsString
  /-- The plugin host takes both from the manifest. -/
  id_eq : id = manifest.id
  version_eq : version = manifest.version

/-- `findStagedBundle`, for the bundles that `listStagedBundles` returned. -/
def findStagedBundle (staged : List StagedBundle) (id sha256 : JsString) : Option StagedBundle :=
  staged.find? fun b => (b.manifest.map Manifest.id == some id) && b.sha256 == sha256

/-! ### Results -/

/-- `CapabilityDiffEntry`. -/
structure CapabilityDiffEntry where
  cap : JsString
  reason : JsString
  deriving DecidableEq

/-- `upgradeDiff`. -/
structure UpgradeDiff where
  added : List CapabilityDiffEntry
  removed : List CapabilityDiffEntry

/-- `TrustResult`. -/
structure TrustResult where
  pluginId : JsString
  version : JsString
  sha256 : JsString
  grantedCaps : List JsString
  upgradeDiff : Option UpgradeDiff

/-- What a call does: its writes, its entry in the audit log, and what it returns. -/
structure Outcome where
  writes : List Write
  audit : AuditEntryInput
  result : Option TrustResult

/-- `computeUpgradeDiff`. -/
def computeUpgradeDiff (previous : Option Manifest) (next : Manifest) : Option UpgradeDiff :=
  previous.map fun previous =>
    let prevCaps := previous.capabilities.map ManifestCapability.cap
    let nextCaps := next.capabilities.map ManifestCapability.cap
    { added := (next.capabilities.filter fun c => c.cap ∉ prevCaps).map fun c => ⟨c.cap, c.reason⟩
      removed := (previous.capabilities.filter fun c => c.cap ∉ nextCaps).map fun c => ⟨c.cap, c.reason⟩ }

/-- The entry of a trust call. -/
def trustEntry (id version sha256 : JsString) (more : Obj Json)
    (hmore : more = [] ∨ more = [(js "builtin", .bool true)]) : AuditEntryInput where
  type := js "plugin.trust"
  details := [(js "pluginId", .str id), (js "version", .str version), (js "sha256", .str sha256)] ++ more
  details_proper := by
    have hkeys : Obj.keys ([(js "pluginId", Json.str id), (js "version", .str version), (js "sha256", .str sha256)] ++ more) =
        [js "pluginId", js "version", js "sha256"] ++ Obj.keys more := by simp [Obj.keys]
    refine .plain ?_ ?_ ?_
    · rw [hkeys]
      rcases hmore with rfl | rfl
      · decide
      · decide
    · rw [hkeys]
      rcases hmore with rfl | rfl
      · decide
      · decide
    · intro e he
      rcases hmore with rfl | rfl
      · simp only [List.append_nil, List.mem_cons, List.not_mem_nil, or_false] at he
        rcases he with rfl | rfl | rfl <;> exact .str _
      · simp only [List.cons_append, List.nil_append, List.mem_cons, List.not_mem_nil, or_false] at he
        rcases he with rfl | rfl | rfl | rfl
        · exact .str _
        · exact .str _
        · exact .str _
        · exact .bool _

/-- The entry of an untrust call. -/
def untrustEntry (id : JsString) : AuditEntryInput where
  type := js "plugin.untrust"
  details := [(js "pluginId", .str id)]
  details_proper := by
    refine .plain (by simp [Obj.keys]) ?_ ?_
    · change ∀ k ∈ [js "pluginId"], _
      decide
    · intro e he
      rw [List.mem_singleton] at he
      subst he
      exact .str _

/-! ### The calls -/

/-- `JSON.parse` throws where there is no value; the text of its error is left out. -/
def orThrow {α : Type} : Option α → Except JsError α
  | some v => .ok v
  | none => .error (.error (js "SyntaxError"))

/-- `TrustFlowDeps`: the key, the bundles in the staging area and the clock. -/
structure TrustFlowDeps (κ : Type) where
  signingKey : κ
  staged : List StagedBundle
  now : JsString

section Flow

variable {κ : Type} (N : Numerals) (S : SignatureScheme κ)

/-- The row that `recordTrustAndGrants` inserts for the trust. -/
def trustRecordRow (key : κ) (now : JsString) (manifest : Manifest) (sha256 : JsString) : Except JsError TrustRecordRow := do
  let grantedCapsJson := stringify (.arr (manifest.capabilities.map fun c => .str c.cap))
  let payload ← orThrow (canonicalTrustRecordPayload N manifest.id manifest.version sha256 grantedCapsJson)
  return ⟨manifest.id, manifest.version, sha256, grantedCapsJson, S.sign key payload, now, none⟩

/-- The row that it inserts for a capability. -/
def grantRow (key : κ) (now : JsString) (manifest : Manifest) (cap : ManifestCapability) :
    Except JsError StateStore.GrantRow := do
  let scopeJson := stringify (.obj cap.scope)
  let payload ← orThrow (canonicalGrantPayload N manifest.id cap.cap scopeJson)
  return ⟨0, manifest.id, cap.cap, scopeJson, S.sign key payload, now, none⟩

/-- `recordTrustAndGrants`. -/
def recordTrustAndGrants (key : κ) (now : JsString) (manifest : Manifest) (sha256 : JsString) :
    Except JsError (List Write) := do
  let record ← trustRecordRow N S key now manifest sha256
  let grants ← manifest.capabilities.mapM (grantRow N S key now manifest)
  return .insertTrustRecord record :: grants.map .insertGrant

/-- A capability of which only the name is known. -/
def bareCapability (cap : JsString) : ManifestCapability := ⟨cap, [], [], .obj rfl (by simp)⟩

/-- The texts among the values of an array. -/
def asText : Json → Option JsString
  | .str s => some s
  | _ => none

/-- `previousTrustedManifest`: the last of the live records, as a manifest. -/
def previousTrustedManifest (t : Tables) (pluginId : JsString) : Except JsError (Option Manifest) :=
  match (t.recordsOf pluginId).getLast? with
  | none => .ok none
  | some latest => do
    match ← orThrow (parse N latest.grantedCapsJson) with
    | .arr caps => return some ⟨latest.pluginId, latest.version, [], none, (caps.filterMap asText).map bareCapability⟩
    | _ => .error (.typeError (js "JSON.parse(...).map is not a function"))

/-- `trustStagedBundle`. -/
def trustStagedBundle (deps : TrustFlowDeps κ) (id sha256 : JsString) (t : Tables) : Except JsError Outcome :=
  match (findStagedBundle deps.staged id sha256).bind StagedBundle.manifest with
  | none => .error (.error (js "no staged bundle matches " ++ id ++ js "@" ++ sha256))
  | some manifest => do
    let previous ← previousTrustedManifest N t id
    let writes ← recordTrustAndGrants N S deps.signingKey deps.now manifest sha256
    return { writes := writes
             audit := trustEntry id manifest.version sha256 [] (.inl rfl)
             result := some ⟨id, manifest.version, sha256, manifest.capabilities.map ManifestCapability.cap,
               computeUpgradeDiff previous manifest⟩ }

/-- `trustBuiltin`. -/
def trustBuiltin (deps : TrustFlowDeps κ) (builtin : Builtin) (t : Tables) : Except JsError Outcome := do
  let previous ← previousTrustedManifest N t builtin.id
  let writes ← recordTrustAndGrants N S deps.signingKey deps.now builtin.manifest builtin.sha256
  return { writes := writes
           audit := trustEntry builtin.id builtin.version builtin.sha256 [(js "builtin", .bool true)] (.inr rfl)
           result := some ⟨builtin.id, builtin.version, builtin.sha256,
             builtin.manifest.capabilities.map ManifestCapability.cap, computeUpgradeDiff previous builtin.manifest⟩ }

/-- The loop of `untrustPlugin` over the records. -/
def revokeRecords (now : JsString) (live : List TrustRecordRow) : List Write :=
  live.map fun r => .revokeTrustRecord r.pluginId r.version now

/-- The loop of `untrustPlugin` over the grants. -/
def revokeGrants (now : JsString) (grants : List StateStore.GrantRow) : List Write :=
  grants.map fun g => .revokeGrant g.id now

/-- `untrustPlugin`. The grants are listed after the records are revoked, which does not change them. -/
def untrustPlugin (deps : TrustFlowDeps κ) (id : JsString) (t : Tables) : Except JsError Outcome :=
  let live := t.recordsOf id
  if live.isEmpty then .error (.error (js "plugin " ++ id ++ js " is not currently trusted"))
  else .ok {
    writes := revokeRecords deps.now live ++ revokeGrants deps.now (t.listGrants id)
    audit := untrustEntry id
    result := none }

end Flow

/-- A call of the trust flow. -/
inductive Call (κ : Type) where
  | trustStagedBundle (deps : TrustFlowDeps κ) (id sha256 : JsString)
  | trustBuiltin (deps : TrustFlowDeps κ) (builtin : Builtin)
  | untrustPlugin (deps : TrustFlowDeps κ) (id : JsString)

namespace Call

variable {κ : Type} (N : Numerals) (S : SignatureScheme κ)

/-- What a call does in a state of the tables. -/
def outcome (t : Tables) : Call κ → Except JsError Outcome
  | .trustStagedBundle deps id sha256 => TrustFlow.trustStagedBundle N S deps id sha256 t
  | .trustBuiltin deps builtin => TrustFlow.trustBuiltin N S deps builtin t
  | .untrustPlugin deps id => TrustFlow.untrustPlugin deps id t

/-- The writes of a call: none if it throws. -/
def writes (t : Tables) (c : Call κ) : List Write :=
  match c.outcome N S t with
  | .ok o => o.writes
  | .error _ => []

/-- The manifest and the hash that a call is to trust, if there are such. -/
def trusts : Call κ → Option (Manifest × JsString)
  | .trustStagedBundle deps id sha256 =>
    ((findStagedBundle deps.staged id sha256).bind StagedBundle.manifest).map fun m => (m, sha256)
  | .trustBuiltin _ builtin => some (builtin.manifest, builtin.sha256)
  | .untrustPlugin _ _ => none

/-- The plugin that a call is to untrust. -/
def untrusts : Call κ → Option JsString
  | .untrustPlugin _ id => some id
  | _ => none

end Call

/-! ### What is written -/

section Rows

variable {κ : Type} {N : Numerals} {S : SignatureScheme κ} {key : κ} {now sha256 : JsString} {m : Manifest}

/-- The names of the capabilities, as a JSON value. -/
def Manifest.grantedCaps (m : Manifest) : Json := .arr (m.capabilities.map fun c => .str c.cap)

theorem Manifest.grantedCaps_proper (m : Manifest) : m.grantedCaps.Proper := by
  refine .arr fun x hx => ?_
  obtain ⟨c, -, rfl⟩ := List.mem_map.mp hx
  exact .str _

variable (S key now) in
/-- The trust record of a manifest. -/
def signedRecord (m : Manifest) (sha256 : JsString) : TrustRecordRow :=
  ⟨m.id, m.version, sha256, stringify m.grantedCaps, S.sign key (stringify (.obj [(js "pluginId", .str m.id),
    (js "version", .str m.version), (js "sha256", .str sha256), (js "grantedCaps", m.grantedCaps)])), now, none⟩

variable (S key now) in
/-- The grant of a capability. -/
def signedGrant (m : Manifest) (c : ManifestCapability) : StateStore.GrantRow :=
  ⟨0, m.id, c.cap, stringify (.obj c.scope), S.sign key (stringify (.obj [(js "pluginId", .str m.id),
    (js "cap", .str c.cap), (js "scope", .obj c.scope)])), now, none⟩

theorem canonicalTrustRecordPayload_eq (m : Manifest) (sha256 : JsString) :
    canonicalTrustRecordPayload N m.id m.version sha256 (stringify m.grantedCaps) = some (stringify
      (.obj [(js "pluginId", .str m.id), (js "version", .str m.version), (js "sha256", .str sha256),
        (js "grantedCaps", m.grantedCaps)])) := by
  rw [canonicalTrustRecordPayload, parse_stringify m.grantedCaps_proper]
  rfl

theorem canonicalGrantPayload_eq (m : Manifest) (c : ManifestCapability) :
    canonicalGrantPayload N m.id c.cap (stringify (.obj c.scope)) = some (stringify
      (.obj [(js "pluginId", .str m.id), (js "cap", .str c.cap), (js "scope", .obj c.scope)])) := by
  rw [canonicalGrantPayload, parse_stringify c.scope_proper]
  rfl

theorem trustRecordRow_eq : trustRecordRow N S key now m sha256 = .ok (signedRecord S key now m sha256) := by
  unfold trustRecordRow
  change (orThrow (canonicalTrustRecordPayload N m.id m.version sha256 (stringify m.grantedCaps)) >>= _) = _
  rw [canonicalTrustRecordPayload_eq]
  rfl

theorem grantRow_eq (c : ManifestCapability) : grantRow N S key now m c = .ok (signedGrant S key now m c) := by
  unfold grantRow
  change (orThrow (canonicalGrantPayload N m.id c.cap (stringify (.obj c.scope))) >>= _) = _
  rw [canonicalGrantPayload_eq]
  rfl

/-- Recording trust never throws: what it parses it has just written. -/
theorem recordTrustAndGrants_eq : recordTrustAndGrants N S key now m sha256 =
    .ok (.insertTrustRecord (signedRecord S key now m sha256) ::
      (m.capabilities.map (signedGrant S key now m)).map .insertGrant) := by
  have hgrants : m.capabilities.mapM (grantRow N S key now m) = .ok (m.capabilities.map (signedGrant S key now m)) := by
    rw [funext (grantRow_eq (N := N) (S := S) (m := m))]
    induction m.capabilities with
    | nil => rfl
    | cons c cs ih =>
      rw [List.mapM_cons, ih]
      rfl
  rw [recordTrustAndGrants, trustRecordRow_eq, hgrants]
  rfl

end Rows

/-! ### What a call does -/

section Calls

variable {κ : Type} (N : Numerals) (S : SignatureScheme κ)

/-- A call, in which the process stops after so many of its writes if it stops at all. -/
def attempt (t : Tables) (c : Call κ) : Option ℕ → Tables
  | none => t.writeAll (c.writes N S t)
  | some k => t.writeAll ((c.writes N S t).take k)

/-- The tables after a sequence of calls on a new store. -/
def runCalls (calls : List (Call κ)) : Tables := calls.foldl (fun t c => attempt N S t c none) .empty

/-- The names of the capabilities of every live record can be read back. -/
def CapsReadable (t : Tables) : Prop := ∀ r, t.LiveRecord r → ∃ caps, parse N r.grantedCapsJson = some (.arr caps)

variable {N S} {t : Tables} {c : Call κ} {m : Manifest} {id sha256 : JsString} {r : TrustRecordRow}

theorem previousTrustedManifest_ok (h : CapsReadable N t) (id : JsString) :
    ∃ previous, previousTrustedManifest N t id = .ok previous := by
  unfold previousTrustedManifest
  cases hlast : (t.recordsOf id).getLast? with
  | none => exact ⟨none, rfl⟩
  | some latest =>
    obtain ⟨caps, hcaps⟩ := h latest (Tables.mem_recordsOf.mp (List.mem_of_getLast? hlast)).1
    simp only [hcaps]
    exact ⟨_, rfl⟩

/-- The writes of a trust call that has a manifest: a record and its grants. -/
theorem writes_of_trusts (h : CapsReadable N t) (hc : c.trusts = some (m, sha256)) :
    ∃ key now, c.writes N S t = .insertTrustRecord (signedRecord S key now m sha256) ::
      (m.capabilities.map (signedGrant S key now m)).map .insertGrant := by
  cases c with
  | trustStagedBundle deps id sha =>
    obtain ⟨m', hm, heq⟩ := Option.map_eq_some_iff.mp hc
    cases heq
    obtain ⟨previous, hprevious⟩ := previousTrustedManifest_ok h id
    refine ⟨deps.signingKey, deps.now, ?_⟩
    simp only [Call.writes, Call.outcome, trustStagedBundle, hm, hprevious, recordTrustAndGrants_eq]
    rfl
  | trustBuiltin deps builtin =>
    cases hc
    obtain ⟨previous, hprevious⟩ := previousTrustedManifest_ok h builtin.id
    refine ⟨deps.signingKey, deps.now, ?_⟩
    simp only [Call.writes, Call.outcome, trustBuiltin, hprevious, recordTrustAndGrants_eq]
    rfl
  | untrustPlugin deps id => cases hc

/-- The writes of an untrust call: it revokes the records and then the grants, if there is a record. -/
theorem writes_of_untrusts (hc : c.untrusts = some id) :
    ∃ now, c.writes N S t = if (t.recordsOf id).isEmpty then [] else
      revokeRecords now (t.recordsOf id) ++ revokeGrants now (t.listGrants id) := by
  cases c with
  | trustStagedBundle deps i sha => cases hc
  | trustBuiltin deps builtin => cases hc
  | untrustPlugin deps i =>
    cases hc
    refine ⟨deps.now, ?_⟩
    by_cases hempty : (t.recordsOf id).isEmpty = true
    · simp only [Call.writes, Call.outcome, untrustPlugin, if_pos hempty]
    · simp only [Call.writes, Call.outcome, untrustPlugin, if_neg hempty]

/-- A trust call without a manifest throws. -/
theorem writes_of_neither (hc : c.trusts = none) (hc' : c.untrusts = none) : c.writes N S t = [] := by
  cases c with
  | trustStagedBundle deps id sha =>
    have hm := Option.map_eq_none_iff.mp hc
    simp only [Call.writes, Call.outcome, trustStagedBundle, hm]
  | trustBuiltin deps builtin => cases hc
  | untrustPlugin deps id => cases hc'

theorem untrusts_eq_none (hc : c.trusts = some (m, sha256)) : c.untrusts = none := by
  cases c with
  | untrustPlugin deps id => cases hc
  | _ => rfl

/-! ### Trusting and untrusting, up to some write -/

theorem writeAll_trust_take (t : Tables) (key : κ) (now : JsString) (m : Manifest) (sha256 : JsString) (k : ℕ) :
    let t' := t.writeAll ((.insertTrustRecord (signedRecord S key now m sha256) ::
      (m.capabilities.map (signedGrant S key now m)).map .insertGrant).take (k + 1))
    (∀ r, t'.LiveRecord r ↔ r = signedRecord S key now m sha256 ∨ t.LiveRecord r ∧ r.key ≠ (m.id, m.version)) ∧
    ∀ x, (∃ g, t'.LiveGrant g ∧ g.content = x) ↔
      (∃ g, t.LiveGrant g ∧ g.content = x) ∨ ∃ c ∈ m.capabilities.take k, signedGrant S key now m c = x := by
  obtain ⟨hgrants, hrecords⟩ := writeAll_insertGrant (t.insertTrustRecord (signedRecord S key now m sha256))
    ((m.capabilities.take k).map (signedGrant S key now m))
  have htake : (Write.insertTrustRecord (signedRecord S key now m sha256) ::
      (m.capabilities.map (signedGrant S key now m)).map Write.insertGrant).take (k + 1) =
      .insertTrustRecord (signedRecord S key now m sha256) ::
        ((m.capabilities.take k).map (signedGrant S key now m)).map .insertGrant := by
    rw [List.take_succ_cons, ← List.map_take, ← List.map_take]
  rw [htake]
  refine ⟨fun r => ?_, fun x => (hgrants x).trans (or_congr Iff.rfl ?_)⟩
  · have hlive := (Tables.liveRecord_insertTrustRecord : (t.insertTrustRecord (signedRecord S key now m sha256)).LiveRecord r ↔ _)
    unfold Tables.LiveRecord at hlive ⊢
    rw [← hrecords] at hlive
    exact hlive
  · constructor
    · rintro ⟨g, hg, rfl⟩
      obtain ⟨c, hc, rfl⟩ := List.mem_map.mp hg
      exact ⟨c, hc, rfl⟩
    · rintro ⟨c, hc, rfl⟩
      exact ⟨_, List.mem_map_of_mem hc, rfl⟩

theorem writeAll_untrust_take (t : Tables) (now : JsString) (rs : List TrustRecordRow)
    (gs : List StateStore.GrantRow) (k : ℕ) :
    let t' := t.writeAll ((revokeRecords now rs ++ revokeGrants now gs).take k)
    (∀ r, t'.LiveRecord r ↔ t.LiveRecord r ∧ r.key ∉ (rs.take k).map TrustRecordRow.key) ∧
    ∀ g, t'.LiveGrant g ↔ t.LiveGrant g ∧ g.id ∉ (gs.take (k - rs.length)).map StateStore.GrantRow.id := by
  have htake : (revokeRecords now rs ++ revokeGrants now gs).take k =
      revokeRecords now (rs.take k) ++ revokeGrants now (gs.take (k - rs.length)) := by
    simp only [revokeRecords, revokeGrants, List.take_append, List.length_map, List.map_take]
  rw [htake, writeAll_append]
  obtain ⟨hrecords, hgrants⟩ := writeAll_revokeTrustRecord t (rs.take k) now
  obtain ⟨hgrants', hrecords'⟩ := writeAll_revokeGrant (t.writeAll (revokeRecords now (rs.take k)))
    (gs.take (k - rs.length)) now
  refine ⟨fun r => ?_, fun g => ?_⟩
  · rw [Tables.LiveRecord, revokeGrants, hrecords']
    exact hrecords r
  · rw [revokeGrants, hgrants' g, Tables.LiveGrant, revokeRecords, hgrants]
    rfl

theorem attempt_none (t : Tables) (c : Call κ) : attempt N S t c none = attempt N S t c (some (c.writes N S t).length) := by
  simp only [attempt, List.take_length]

/-- A live record of the plugin is one of those that an untrust call revokes. -/
theorem key_mem_recordsOf (hr : t.LiveRecord r) : r.key ∈ (t.recordsOf id).map TrustRecordRow.key ↔ r.pluginId = id := by
  rw [List.mem_map]
  constructor
  · rintro ⟨r', hr', hkey⟩
    rw [← (Tables.mem_recordsOf.mp hr').2]
    exact congrArg Prod.fst hkey.symm
  · intro h
    exact ⟨r, Tables.mem_recordsOf.mpr ⟨hr, h⟩, rfl⟩

theorem id_mem_listGrants {g : StateStore.GrantRow} (hg : t.LiveGrant g) :
    g.id ∈ (t.listGrants id).map StateStore.GrantRow.id ↔ g.pluginId = id := by
  rw [List.mem_map]
  constructor
  · rintro ⟨g', hg', heq⟩
    have hlive := Tables.mem_listGrants.mp hg'
    rw [← hlive.2, Store.Table.eq_of_key_eq hlive.1.1 hg.1 heq]
  · intro h
    exact ⟨g, Tables.mem_listGrants.mpr ⟨hg, h⟩, rfl⟩

/-- **What a complete trust call leaves.** -/
theorem attempt_of_trusts (h : CapsReadable N t) (hc : c.trusts = some (m, sha256)) :
    ∃ key now, (∀ r, (attempt N S t c none).LiveRecord r ↔
      r = signedRecord S key now m sha256 ∨ t.LiveRecord r ∧ r.key ≠ (m.id, m.version)) ∧
    ∀ x, (∃ g, (attempt N S t c none).LiveGrant g ∧ g.content = x) ↔
      (∃ g, t.LiveGrant g ∧ g.content = x) ∨ ∃ c ∈ m.capabilities, signedGrant S key now m c = x := by
  obtain ⟨key, now, hwrites⟩ := writes_of_trusts (S := S) h hc
  refine ⟨key, now, ?_⟩
  obtain ⟨hrecords, hgrants⟩ := writeAll_trust_take (S := S) t key now m sha256 m.capabilities.length
  rw [List.take_length] at hgrants
  rw [attempt, hwrites]
  rw [List.take_of_length_le (by simp)] at hrecords hgrants
  exact ⟨hrecords, hgrants⟩

/-- **What a complete untrust call leaves**, if it does not throw. -/
theorem attempt_of_untrusts (hc : c.untrusts = some id) (hlive : t.recordsOf id ≠ []) :
    (∀ r, (attempt N S t c none).LiveRecord r ↔ t.LiveRecord r ∧ r.pluginId ≠ id) ∧
    ∀ g, (attempt N S t c none).LiveGrant g ↔ t.LiveGrant g ∧ g.pluginId ≠ id := by
  obtain ⟨now, hwrites⟩ := writes_of_untrusts (N := N) (S := S) (t := t) hc
  rw [if_neg (by simpa using hlive)] at hwrites
  obtain ⟨hrecords, hgrants⟩ := writeAll_untrust_take t now (t.recordsOf id) (t.listGrants id)
    ((t.recordsOf id).length + (t.listGrants id).length)
  rw [List.take_of_length_le (by simp [revokeRecords, revokeGrants])] at hrecords hgrants
  rw [List.take_of_length_le (by simp)] at hrecords hgrants
  rw [attempt, hwrites]
  refine ⟨fun r => (hrecords r).trans ?_, fun g => (hgrants g).trans ?_⟩
  · exact and_congr_right fun hr => not_congr (key_mem_recordsOf hr)
  · exact and_congr_right fun hg => not_congr (id_mem_listGrants hg)

theorem attempt_of_neither (hc : c.trusts = none) (hc' : c.untrusts = none) (stop : Option ℕ) :
    attempt N S t c stop = t := by
  have hwrites := writes_of_neither (N := N) (S := S) (t := t) hc hc'
  cases stop with
  | none => rw [attempt, hwrites]; rfl
  | some k => rw [attempt, hwrites, List.take_nil]; rfl

theorem attempt_of_untrusts_nil (hc : c.untrusts = some id) (hlive : t.recordsOf id = []) (stop : Option ℕ) :
    attempt N S t c stop = t := by
  obtain ⟨now, hwrites⟩ := writes_of_untrusts (N := N) (S := S) (t := t) hc
  rw [if_pos (by simpa using hlive)] at hwrites
  cases stop with
  | none => rw [attempt, hwrites]; rfl
  | some k => rw [attempt, hwrites, List.take_nil]; rfl

/-- A live record after a call is one that lived before, or one whose capabilities can be read. -/
theorem capsReadable_attempt (h : CapsReadable N t) (c : Call κ) (stop : Option ℕ) : CapsReadable N (attempt N S t c stop) := by
  have hstop : ∃ k, attempt N S t c stop = attempt N S t c (some k) := by
    cases stop with
    | none => exact ⟨_, attempt_none t c⟩
    | some k => exact ⟨k, rfl⟩
  obtain ⟨k, hk⟩ := hstop
  rw [hk]
  rcases htrusts : c.trusts with _ | ⟨m, sha256⟩
  · rcases huntrusts : c.untrusts with _ | id
    · rwa [attempt_of_neither htrusts huntrusts]
    · by_cases hlive : t.recordsOf id = []
      · rwa [attempt_of_untrusts_nil huntrusts hlive]
      · obtain ⟨now, hwrites⟩ := writes_of_untrusts (N := N) (S := S) (t := t) huntrusts
        rw [if_neg (by simpa using hlive)] at hwrites
        rw [attempt, hwrites]
        intro r hr
        exact h r (((writeAll_untrust_take t now _ _ k).1 r).mp hr).1
  · obtain ⟨key, now, hwrites⟩ := writes_of_trusts (S := S) h htrusts
    rw [attempt, hwrites]
    cases k with
    | zero => exact h
    | succ k =>
      intro r hr
      rcases ((writeAll_trust_take t key now m sha256 k).1 r).mp hr with rfl | ⟨hr, -⟩
      · exact ⟨_, parse_stringify m.grantedCaps_proper⟩
      · exact h r hr

theorem capsReadable_empty : CapsReadable N .empty := fun _ hr => absurd hr.1 List.not_mem_nil

variable (N S) in
theorem capsReadable_runCalls (calls : List (Call κ)) : CapsReadable N (runCalls N S calls) := by
  induction calls using List.reverseRecOn with
  | nil => exact capsReadable_empty
  | append_singleton calls c ih =>
    rw [runCalls, List.foldl_concat]
    exact capsReadable_attempt ih c none

variable (N S) in
theorem runCalls_concat (calls : List (Call κ)) (c : Call κ) :
    runCalls N S (calls ++ [c]) = attempt N S (runCalls N S calls) c none := List.foldl_concat _ _ _ _

end Calls

/-! ### The manifest that is in force -/

/-- What is trusted of every plugin: a manifest under a hash. -/
abbrev Trusted := JsString → Option (Manifest × JsString)

/-- What is trusted after a call. -/
def Trusted.after {κ : Type} (cur : Trusted) (c : Call κ) : Trusted := fun id =>
  match c.trusts, c.untrusts with
  | some (m, sha256), _ => if m.id = id then some (m, sha256) else cur id
  | none, some id' => if id' = id then none else cur id
  | none, none => cur id

/-- The manifest of the most recent trust call for a plugin that no untrust call followed. -/
def current {κ : Type} (calls : List (Call κ)) : Trusted := calls.foldl Trusted.after fun _ => none

section Current

variable {κ : Type} {N : Numerals} {S : SignatureScheme κ} {t : Tables} {cur : Trusted} {c : Call κ}

/-- The tables and what should be trusted: a plugin has a live record if and only if a manifest of it is in
force, and one of its live records is that of the manifest. -/
structure Tracks (t : Tables) (cur : Trusted) : Prop where
  live : ∀ id m sha256, cur id = some (m, sha256) →
    ∃ r, t.LiveRecord r ∧ r.key = (id, m.version) ∧ r.sha256 = sha256
  known : ∀ r, t.LiveRecord r → cur r.pluginId ≠ none

theorem Tracks.recordsOf_ne_nil (h : Tracks t cur) {id : JsString} (hcur : cur id ≠ none) : t.recordsOf id ≠ [] := by
  obtain ⟨⟨m, sha256⟩, hm⟩ := Option.ne_none_iff_exists'.mp hcur
  obtain ⟨r, hr, hkey, -⟩ := h.live id m sha256 hm
  have hid : r.pluginId = id := congrArg Prod.fst hkey
  exact List.ne_nil_of_mem (Tables.mem_recordsOf.mpr ⟨hr, hid⟩)

/-- **Every call keeps track.** -/
theorem Tracks.step (h : Tracks t cur) (hread : CapsReadable N t) (c : Call κ) :
    Tracks (attempt N S t c none) (cur.after c) := by
  unfold Trusted.after
  rcases htrusts : c.trusts with _ | ⟨m, sha256⟩
  · rcases huntrusts : c.untrusts with _ | id
    · rw [attempt_of_neither htrusts huntrusts]
      exact h
    · by_cases hlive : t.recordsOf id = []
      · -- the call throws, and nothing of the plugin was trusted
        rw [attempt_of_untrusts_nil huntrusts hlive]
        have hcur : cur id = none := by_contra fun hne => h.recordsOf_ne_nil hne hlive
        have hsame : (fun id' => if id = id' then none else cur id') = cur := by
          funext id'
          split
          · rename_i heq
            rw [← heq, hcur]
          · rfl
        simpa only [hsame] using h
      · obtain ⟨hrecords, -⟩ := attempt_of_untrusts (N := N) (S := S) huntrusts hlive
        refine ⟨fun id' m sha256 hm => ?_, fun r hr => ?_⟩
        · dsimp only at hm
          split at hm
          · cases hm
          · rename_i hne
            obtain ⟨r, hr, hkey, hsha⟩ := h.live id' m sha256 hm
            exact ⟨r, (hrecords r).mpr ⟨hr, fun heq => hne (heq.symm.trans (congrArg Prod.fst hkey))⟩, hkey, hsha⟩
        · obtain ⟨hr, hne⟩ := (hrecords r).mp hr
          simpa only [if_neg (Ne.symm hne)] using h.known r hr
  · obtain ⟨key, now, hrecords, -⟩ := attempt_of_trusts (S := S) hread htrusts
    refine ⟨fun id' m' sha' hm => ?_, fun r hr => ?_⟩
    · dsimp only at hm
      split at hm
      · rename_i heq
        cases hm
        exact ⟨_, (hrecords _).mpr (.inl rfl), by rw [← heq]; rfl, rfl⟩
      · rename_i hne
        obtain ⟨r, hr, hkey, hsha⟩ := h.live id' m' sha' hm
        refine ⟨r, (hrecords r).mpr (.inr ⟨hr, fun heq => hne ?_⟩), hkey, hsha⟩
        exact (congrArg Prod.fst heq).symm.trans (congrArg Prod.fst hkey)
    · rcases (hrecords r).mp hr with rfl | ⟨hr, -⟩
      · simp only [signedRecord, if_true, ne_eq, reduceCtorEq, not_false_eq_true]
      · dsimp only
        split
        · simp
        · exact h.known r hr

theorem current_concat_trusts (calls : List (Call κ)) {m : Manifest} {sha256 : JsString} (hc : c.trusts = some (m, sha256)) :
    current (calls ++ [c]) m.id = some (m, sha256) := by
  rw [current, List.foldl_concat]
  simp only [Trusted.after, hc, if_true]

variable (N S) in
theorem tracks_runCalls (calls : List (Call κ)) : Tracks (runCalls N S calls) (current calls) := by
  induction calls using List.reverseRecOn with
  | nil => exact ⟨fun _ _ _ h => absurd h (by simp [current]), fun _ hr => absurd hr.1 List.not_mem_nil⟩
  | append_singleton calls c ih =>
    rw [runCalls_concat, current, List.foldl_concat]
    exact ih.step (capsReadable_runCalls N S calls) c

end Current

/-! ### Grants and the manifest -/

section Grants

variable {κ : Type} (N : Numerals) (S : SignatureScheme κ)

/-- The live grants of a plugin: capabilities with their scopes, as the host API reads them. -/
def grantSet (t : Tables) (id : JsString) : Set (JsString × Option Json) :=
  { x | ∃ g, t.LiveGrant g ∧ g.pluginId = id ∧ (g.cap, parse N g.scopeJson) = x }

/-- The capabilities of a manifest with their scopes. -/
def Manifest.capabilitySet (m : Manifest) : Set (JsString × Option Json) :=
  { x | ∃ c ∈ m.capabilities, (c.cap, some (Json.obj c.scope)) = x }

/-- The capabilities of the manifest that is in force for a plugin, if there is one. -/
def Trusted.capabilitySet (cur : Trusted) (id : JsString) : Set (JsString × Option Json) :=
  match cur id with
  | some (m, _) => m.capabilitySet
  | none => ∅

/-- A trust call, if it is one, leaves out no capability that is granted to the plugin. -/
def KeepsGrants (t : Tables) (c : Call κ) : Prop :=
  ∀ m sha256, c.trusts = some (m, sha256) → grantSet N t m.id ⊆ m.capabilitySet

/-- What a call reports as removed is not granted after it. -/
def RemovedRevoked (t : Tables) (c : Call κ) : Prop :=
  ∀ o result diff, c.outcome N S t = .ok o → o.result = some result → result.upgradeDiff = some diff →
    ∀ e ∈ diff.removed, ∀ scope, (e.cap, scope) ∉ grantSet N (attempt N S t c none) result.pluginId

variable {N S} {t : Tables} {c : Call κ} {m : Manifest} {id sha256 : JsString}

theorem mem_grantSet_iff {x : JsString × Option Json} :
    x ∈ grantSet N t id ↔ ∃ y, (∃ g, t.LiveGrant g ∧ g.content = y) ∧ y.pluginId = id ∧ (y.cap, parse N y.scopeJson) = x := by
  constructor
  · rintro ⟨g, hg, hid, hx⟩
    exact ⟨g.content, ⟨g, hg, rfl⟩, hid, hx⟩
  · rintro ⟨_, ⟨g, hg, rfl⟩, hid, hx⟩
    exact ⟨g, hg, hid, hx⟩

/-- A trust call adds the capabilities of its manifest to the grants, and takes none away. -/
theorem grantSet_of_trusts (h : CapsReadable N t) (hc : c.trusts = some (m, sha256)) (id : JsString) :
    grantSet N (attempt N S t c none) id = if m.id = id then grantSet N t id ∪ m.capabilitySet else grantSet N t id := by
  obtain ⟨key, now, -, hgrants⟩ := attempt_of_trusts (S := S) h hc
  ext x
  simp only [mem_grantSet_iff, hgrants]
  have hsigned : ∀ y, (∃ c ∈ m.capabilities, signedGrant S key now m c = y) ∧ y.pluginId = id ∧
      (y.cap, parse N y.scopeJson) = x → m.id = id ∧ x ∈ m.capabilitySet := by
    rintro _ ⟨⟨c, hc, rfl⟩, hid, rfl⟩
    exact ⟨hid, c, hc, by rw [← parse_stringify (N := N) c.scope_proper]; rfl⟩
  split
  · rename_i hid
    rw [Set.mem_union, mem_grantSet_iff]
    constructor
    · rintro ⟨y, hold | hnew, hy⟩
      · exact .inl ⟨y, hold, hy⟩
      · exact .inr (hsigned y ⟨hnew, hy⟩).2
    · rintro (⟨y, hold, hy⟩ | ⟨c, hc, rfl⟩)
      · exact ⟨y, .inl hold, hy⟩
      · refine ⟨_, .inr ⟨c, hc, rfl⟩, hid, ?_⟩
        rw [← parse_stringify (N := N) c.scope_proper]
        rfl
  · rename_i hid
    rw [mem_grantSet_iff]
    constructor
    · rintro ⟨y, hold | hnew, hy⟩
      · exact ⟨y, hold, hy⟩
      · exact absurd (hsigned y ⟨hnew, hy⟩).1 hid
    · rintro ⟨y, hold, hy⟩
      exact ⟨y, .inl hold, hy⟩

/-- A trust call grants what its manifest asks for, beside what was granted before. -/
theorem mem_grantSet_concat (calls : List (Call κ)) {x : JsString × Option Json} (hc : c.trusts = some (m, sha256))
    (hx : x ∈ grantSet N (runCalls N S calls) m.id ∨ x ∈ m.capabilitySet) :
    x ∈ grantSet N (runCalls N S (calls ++ [c])) m.id := by
  rw [runCalls_concat, grantSet_of_trusts (capsReadable_runCalls N S calls) hc, if_pos rfl]
  exact hx

theorem grantSet_of_untrusts (hc : c.untrusts = some id) (hlive : t.recordsOf id ≠ []) (id' : JsString) :
    grantSet N (attempt N S t c none) id' = if id = id' then ∅ else grantSet N t id' := by
  obtain ⟨-, hgrants⟩ := attempt_of_untrusts (N := N) (S := S) hc hlive
  ext x
  simp only [grantSet, hgrants]
  split
  · rename_i heq
    simp only [Set.mem_ofPred_eq, Set.mem_empty_iff_false, iff_false]
    rintro ⟨g, ⟨-, hne⟩, hid, -⟩
    exact hne (hid.trans heq.symm)
  · rename_i hne
    constructor
    · rintro ⟨g, ⟨hg, -⟩, hx⟩
      exact ⟨g, hg, hx⟩
    · rintro ⟨g, hg, hid, hx⟩
      exact ⟨g, ⟨hg, fun heq => hne (heq.symm.trans hid)⟩, hid, hx⟩

theorem manifest_id_of_find {staged : List StagedBundle}
    (h : (findStagedBundle staged id sha256).bind StagedBundle.manifest = some m) : m.id = id := by
  obtain ⟨b, hb, hm⟩ := Option.bind_eq_some_iff.mp h
  have hfound := List.find?_some hb
  rw [hm] at hfound
  simp only [Option.map_some, Bool.and_eq_true, beq_iff_eq, Option.some.injEq] at hfound
  exact hfound.1

theorem not_mem_of_removed {previous : Option Manifest} {diff : UpgradeDiff} (h : computeUpgradeDiff previous m = some diff)
    {e : CapabilityDiffEntry} (he : e ∈ diff.removed) : e.cap ∉ m.capabilities.map ManifestCapability.cap := by
  obtain ⟨p, -, rfl⟩ := Option.map_eq_some_iff.mp h
  obtain ⟨c, hc, rfl⟩ := List.mem_map.mp he
  simpa using (List.mem_filter.mp hc).2

/-- What a call reports is about the manifest that it trusts. -/
theorem result_of_outcome {o : Outcome} {result : TrustResult} (ho : c.outcome N S t = .ok o)
    (hresult : o.result = some result) :
    ∃ m sha256 previous, c.trusts = some (m, sha256) ∧ m.id = result.pluginId ∧
      result.upgradeDiff = computeUpgradeDiff previous m := by
  cases c with
  | trustStagedBundle deps id sha =>
    simp only [Call.outcome, trustStagedBundle] at ho
    rcases hm : (findStagedBundle deps.staged id sha).bind StagedBundle.manifest with _ | m
    · rw [hm] at ho
      cases ho
    · rw [hm] at ho
      rcases hprevious : previousTrustedManifest N t id with err | previous
      · rw [hprevious] at ho
        cases ho
      · simp only [hprevious, recordTrustAndGrants_eq] at ho
        cases ho
        cases hresult
        exact ⟨m, sha, previous, by simp only [Call.trusts, hm, Option.map_some], manifest_id_of_find hm, rfl⟩
  | trustBuiltin deps builtin =>
    simp only [Call.outcome, trustBuiltin] at ho
    rcases hprevious : previousTrustedManifest N t builtin.id with err | previous
    · rw [hprevious] at ho
      cases ho
    · rw [hprevious, recordTrustAndGrants_eq] at ho
      cases ho
      cases hresult
      exact ⟨builtin.manifest, builtin.sha256, previous, rfl, builtin.id_eq.symm, rfl⟩
  | untrustPlugin deps id =>
    simp only [Call.outcome, untrustPlugin] at ho
    split at ho
    · cases ho
    · cases ho
      cases hresult

/-- If the grants are those of the manifest after a trust call, what it removed is not among them. -/
theorem removedRevoked_of_match (cur : Trusted)
    (h : ∀ id, grantSet N (attempt N S t c none) id = (cur.after c).capabilitySet id) : RemovedRevoked N S t c := by
  intro o result diff ho hresult hdiff e he scope hmem
  obtain ⟨m, sha256, previous, htrusts, hid, hdiff'⟩ := result_of_outcome ho hresult
  rw [h, Trusted.capabilitySet, Trusted.after, htrusts] at hmem
  simp only [if_pos hid] at hmem
  obtain ⟨cap, hcap, heq⟩ := hmem
  refine not_mem_of_removed (hdiff'.symm.trans hdiff) he ?_
  rw [← show cap.cap = e.cap from congrArg Prod.fst heq]
  exact List.mem_map_of_mem hcap

/-- **One call.** Where grants and manifests agree, they agree after a call if and only if it leaves out
nothing that was granted. -/
theorem match_after_iff {cur : Trusted} (hread : CapsReadable N t) (htracks : Tracks t cur)
    (h : ∀ id, grantSet N t id = cur.capabilitySet id) (c : Call κ) :
    (∀ id, grantSet N (attempt N S t c none) id = (cur.after c).capabilitySet id) ↔ KeepsGrants N t c := by
  unfold KeepsGrants Trusted.capabilitySet Trusted.after
  rcases htrusts : c.trusts with _ | ⟨m, sha256⟩
  · simp only [reduceCtorEq, false_implies, implies_true, iff_true]
    intro id'
    rcases huntrusts : c.untrusts with _ | id
    · rw [attempt_of_neither htrusts huntrusts]
      exact h id'
    · by_cases hlive : t.recordsOf id = []
      · rw [attempt_of_untrusts_nil huntrusts hlive]
        have hcur : cur id = none := by_contra fun hne => htracks.recordsOf_ne_nil hne hlive
        rw [h id', Trusted.capabilitySet]
        by_cases heq : id = id'
        · subst heq
          simp only [if_true, hcur]
        · simp only [if_neg heq]
      · rw [grantSet_of_untrusts huntrusts hlive]
        by_cases heq : id = id'
        · simp only [if_pos heq]
        · simp only [if_neg heq]
          exact h id'
  · simp only [Option.some.injEq, Prod.mk.injEq, and_imp]
    constructor
    · rintro hmatch _ _ rfl rfl
      have hm := hmatch m.id
      rw [grantSet_of_trusts hread htrusts, if_pos rfl] at hm
      simp only [if_true] at hm
      exact Set.union_eq_right.mp hm
    · intro hkeeps id'
      rw [grantSet_of_trusts hread htrusts]
      by_cases heq : m.id = id'
      · simp only [if_pos heq]
        exact Set.union_eq_right.mpr (heq ▸ hkeeps m sha256 rfl rfl)
      · simp only [if_neg heq]
        exact h id'

variable (N S) in
/-- **Live grants equal the trusted manifest exactly when no trust call leaves out a capability that is granted.**
After every call of a run the live grants of each plugin are the capabilities of the manifest in force, and
what a call reports as removed is revoked, if and only if the manifest of every trust call has, with its scope,
each capability that the plugin is granted at that point. -/
theorem live_grants_iff (calls : List (Call κ)) :
    ((∀ pre, pre <+: calls → ∀ id, grantSet N (runCalls N S pre) id = (current pre).capabilitySet id) ∧
      ∀ pre c, pre ++ [c] <+: calls → RemovedRevoked N S (runCalls N S pre) c) ↔
    ∀ pre c, pre ++ [c] <+: calls → KeepsGrants N (runCalls N S pre) c := by
  have hstep : ∀ pre c, (∀ id, grantSet N (runCalls N S pre) id = (current pre).capabilitySet id) →
      ((∀ id, grantSet N (runCalls N S (pre ++ [c])) id = (current (pre ++ [c])).capabilitySet id) ↔
        KeepsGrants N (runCalls N S pre) c) := by
    intro pre c hpre
    rw [runCalls_concat, current, List.foldl_concat]
    exact match_after_iff (capsReadable_runCalls N S pre) (tracks_runCalls N S pre) hpre c
  constructor
  · rintro ⟨hmatch, -⟩ pre c hinit
    exact (hstep pre c (hmatch pre ((List.prefix_append pre [c]).trans hinit))).mp (hmatch _ hinit)
  · intro hkeeps
    have hmatch : ∀ pre, pre <+: calls → ∀ id, grantSet N (runCalls N S pre) id = (current pre).capabilitySet id := by
      intro pre hinit
      induction pre using List.reverseRecOn with
      | nil =>
        intro id
        refine Set.eq_empty_of_forall_notMem fun x hx => ?_
        obtain ⟨g, hg, -⟩ := hx
        exact absurd hg.1 List.not_mem_nil
      | append_singleton pre c ih =>
        exact (hstep pre c (ih ((List.prefix_append pre [c]).trans hinit))).mpr (hkeeps pre c hinit)
    refine ⟨hmatch, fun pre c hinit => removedRevoked_of_match (current pre) ?_⟩
    have hafter := hmatch _ hinit
    rw [runCalls_concat, current, List.foldl_concat] at hafter
    exact hafter

end Grants

/-! An upgrade that gives up `docker.device`. -/

/-- A scope with one list of patterns. -/
def patternScope (name pattern : JsString) : Obj Json := [(name, .arr [.str pattern])]

theorem patternScope_proper {name : JsString} (hname : arrayIndex name = none) (pattern : JsString) :
    (Json.obj (patternScope name pattern)).Proper := by
  refine .plain (by simp [Obj.keys, patternScope]) ?_ ?_
  · intro k hk
    have : k = name := by simpa [Obj.keys, patternScope] using hk
    rw [this, hname]
  · intro e he
    rw [patternScope, List.mem_singleton] at he
    subst he
    refine .arr fun x hx => ?_
    rw [List.mem_singleton] at hx
    subst hx
    exact .str _

/-- The capability to pull images. -/
def pullCapability : ManifestCapability :=
  ⟨js "docker.image.pull", patternScope (js "repos") (js "*"), js "pull images", patternScope_proper (by decide) _⟩

/-- The capability to use devices. -/
def deviceCapability : ManifestCapability :=
  ⟨js "docker.device", patternScope (js "paths") (js "/dev/dri/*"), js "hw transcode", patternScope_proper (by decide) _⟩

/-- A manifest of `deploy-docker`. -/
def deployManifest (version : JsString) (capabilities : List ManifestCapability) : Manifest :=
  ⟨js "deploy-docker", version, [js "deploy"], none, capabilities⟩

/-- Trust a built-in under a hash. -/
def trustCall (manifest : Manifest) (sha256 : JsString) : Call JsString :=
  .trustBuiltin ⟨js "key", [], js "2025-01-01T00:00:00.000Z"⟩ ⟨manifest.id, manifest.version, manifest, sha256, rfl, rfl⟩

/-- The first version, with both capabilities. -/
def deployManifest1 : Manifest := deployManifest (js "0.1.0") [pullCapability, deviceCapability]

/-- The second version, with one of them. -/
def deployManifest2 : Manifest := deployManifest (js "0.2.0") [pullCapability]

/-- The first version is trusted, and then the second. -/
def upgradeCalls : List (Call JsString) := [] ++ [trustCall deployManifest1 (js "h1")] ++ [trustCall deployManifest2 (js "h2")]

/-- What the first version asks for and the second does not. -/
def deviceGrant : JsString × Option Json :=
  (js "docker.device", some (.obj (patternScope (js "paths") (js "/dev/dri/*"))))

/-- After the upgrade the plugin still has the grant that the new manifest does not ask for. -/
theorem upgrade_keeps_device_grant :
    ¬ ∀ id, grantSet Numerals.exact (runCalls Numerals.exact sampleScheme upgradeCalls) id =
      (current upgradeCalls).capabilitySet id := by
  intro h
  have hasked : deviceGrant ∈ deployManifest1.capabilitySet :=
    ⟨deviceCapability, List.mem_cons_of_mem _ List.mem_cons_self, rfl⟩
  have hfirst := mem_grantSet_concat (N := Numerals.exact) (S := sampleScheme) (m := deployManifest1)
    (c := trustCall deployManifest1 (js "h1")) [] rfl (.inr hasked)
  have hsecond := mem_grantSet_concat (N := Numerals.exact) (S := sampleScheme) (m := deployManifest2)
    (c := trustCall deployManifest2 (js "h2")) _ rfl (.inl hfirst)
  have hnot : deviceGrant ∉ (current upgradeCalls).capabilitySet deployManifest2.id := by
    have hcur : current upgradeCalls deployManifest2.id = some (deployManifest2, js "h2") :=
      current_concat_trusts _ rfl
    rw [Trusted.capabilitySet, hcur]
    rintro ⟨c, hc, heq⟩
    rw [deployManifest2, deployManifest, List.mem_singleton] at hc
    subst hc
    exact absurd (congrArg Prod.fst heq) (by decide)
  rw [← h] at hnot
  exact hnot hsecond

end Wanfw.Orchestrator.TrustFlow
