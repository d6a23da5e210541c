import Wanfw.Js.Arrays
import Wanfw.Js.JsonParse
import Wanfw.Store.Table

/-!
# The state store

`state-store/store.ts`: the tables of trust records, grants and approvals. A row is
never deleted: it is revoked, and lives while `revoked_at` is null. Trust records have
the key (plugin id, version) and approvals the projection hash, and both are upserted;
grants are numbered and only ever inserted.

Every operation that writes is one statement (`Write`), so that a process can stop
between any two of them, but not inside one.
-/

namespace Wanfw.Orchestrator.StateStore

open Wanfw.Js Wanfw.Store

/-! ### Rows -/

/-- `TrustRecordRow`. -/
structure TrustRecordRow where
  pluginId : JsString
  version : JsString
  sha256 : JsString
  grantedCapsJson : JsString
  sig : JsString
  createdAt : JsString
  revokedAt : Option JsString
  deriving DecidableEq

/-- The primary key of `trust_records`. -/
def TrustRecordRow.key (r : TrustRecordRow) : JsString × JsString := (r.pluginId, r.version)

/-- The record, revoked. -/
def TrustRecordRow.revoke (now : JsString) (r : TrustRecordRow) : TrustRecordRow := { r with revokedAt := some now }

theorem TrustRecordRow.key_revoke (now : JsString) (r : TrustRecordRow) : (r.revoke now).key = r.key := rfl

/-- `GrantRow`. -/
structure GrantRow where
  id : ℕ
  pluginId : JsString
  cap : JsString
  scopeJson : JsString
  sig : JsString
  createdAt : JsString
  revokedAt : Option JsString
  deriving DecidableEq

/-- The grant, revoked. -/
def GrantRow.revoke (now : JsString) (g : GrantRow) : GrantRow := { g with revokedAt := some now }

theorem GrantRow.id_revoke (now : JsString) (g : GrantRow) : (g.revoke now).id = g.id := rfl

/-- What a grant says, apart from its number. -/
def GrantRow.content (g : GrantRow) : GrantRow := { g with id := 0, revokedAt := none }

/-- `ApprovalRow`. -/
structure ApprovalRow where
  projectionHash : JsString
  serviceId : JsString
  humanRendering : JsString
  sig : JsString
  approvedAt : JsString
  revokedAt : Option JsString
  deriving DecidableEq

/-- The row with its time of revocation. -/
def ApprovalRow.revoke (now : JsString) (a : ApprovalRow) : ApprovalRow := { a with revokedAt := some now }

theorem ApprovalRow.projectionHash_revoke (now : JsString) (a : ApprovalRow) :
    (a.revoke now).projectionHash = a.projectionHash := rfl

/-- The tables. Grants are numbered from 1, and no number is used twice. -/
structure Tables where
  trustRecords : Table TrustRecordRow.key
  grants : Table GrantRow.id
  approvals : Table ApprovalRow.projectionHash
  /-- The last number that was given to a grant. -/
  lastGrantId : ℕ
  grant_id_le : ∀ g ∈ grants, g.id ≤ lastGrantId

namespace Tables

/-- The tables of a new store. -/
def empty : Tables := ⟨.empty, .empty, .empty, 0, fun _ h => absurd h List.not_mem_nil⟩

/-! ### Reading -/

/-- The order of texts in the database: by their bytes. -/
def textOrder (s : JsString) : List ℕ := (utf8 s).map UInt8.toNat

/-- The order of `ORDER BY plugin_id, version`. -/
def recordOrder (r : TrustRecordRow) : List ℕ ×ₗ List ℕ := toLex (textOrder r.pluginId, textOrder r.version)

/-- `listTrustRecords()`: the live records, in the order of id and version. -/
def listTrustRecords (t : Tables) : List TrustRecordRow :=
  sortBy (fun a b => compareOrder (recordOrder a) (recordOrder b)) (t.trustRecords.rows.filter fun r => r.revokedAt.isNone)

/-- The live records of one plugin, as the callers take them from the list. -/
def recordsOf (t : Tables) (id : JsString) : List TrustRecordRow := t.listTrustRecords.filter fun r => r.pluginId = id

/-- `listGrants(pluginId)`: the live grants, in the order of their numbers. -/
def listGrants (t : Tables) (id : JsString) : List GrantRow :=
  t.grants.rows.filter fun g => g.pluginId = id ∧ g.revokedAt.isNone

/-- `listApprovals()`: the live approvals, in the order of their times. -/
def listApprovals (t : Tables) : List ApprovalRow :=
  sortBy (fun a b => compareOrder (textOrder a.approvedAt) (textOrder b.approvedAt))
    (t.approvals.rows.filter fun a => a.revokedAt.isNone)

/-! ### Writing -/

/-- `insertTrustRecord`: the row lives again if it was revoked. -/
def insertTrustRecord (t : Tables) (row : TrustRecordRow) : Tables :=
  { t with trustRecords := t.trustRecords.upsert { row with revokedAt := none } }

/-- `revokeTrustRecord`. -/
def revokeTrustRecord (t : Tables) (id version now : JsString) : Tables where
  trustRecords := t.trustRecords.update (fun r => r.pluginId = id ∧ r.version = version ∧ r.revokedAt.isNone)
    (TrustRecordRow.revoke now) (TrustRecordRow.key_revoke now)
  grants := t.grants
  approvals := t.approvals
  lastGrantId := t.lastGrantId
  grant_id_le := t.grant_id_le

/-- `insertGrant`: a new row with the next number. -/
def insertGrant (t : Tables) (row : GrantRow) : Tables where
  trustRecords := t.trustRecords
  grants := t.grants.upsert { row with id := t.lastGrantId + 1, revokedAt := none }
  approvals := t.approvals
  lastGrantId := t.lastGrantId + 1
  grant_id_le := by
    intro g hg
    rcases Table.mem_upsert.mp hg with rfl | ⟨hg, -⟩
    · exact le_rfl
    · exact (t.grant_id_le g hg).trans (Nat.le_succ _)

/-- `revokeGrant`. -/
def revokeGrant (t : Tables) (id : ℕ) (now : JsString) : Tables where
  trustRecords := t.trustRecords
  grants := t.grants.update (fun g => g.id = id ∧ g.revokedAt.isNone) (GrantRow.revoke now) (GrantRow.id_revoke now)
  approvals := t.approvals
  lastGrantId := t.lastGrantId
  grant_id_le := by
    intro g hg
    obtain ⟨g', hg', rfl⟩ := Table.mem_update.mp hg
    have := t.grant_id_le g' hg'
    split
    · exact this
    · exact this

/-- `insertApproval`. -/
def insertApproval (t : Tables) (row : ApprovalRow) : Tables :=
  { t with approvals := t.approvals.upsert { row with revokedAt := none } }

/-- `revokeApproval`. -/
def revokeApproval (t : Tables) (projectionHash now : JsString) : Tables where
  trustRecords := t.trustRecords
  grants := t.grants
  approvals := t.approvals.update (fun a => a.projectionHash = projectionHash ∧ a.revokedAt.isNone)
    (ApprovalRow.revoke now) (ApprovalRow.projectionHash_revoke now)
  lastGrantId := t.lastGrantId
  grant_id_le := t.grant_id_le

end Tables

/-- One statement that writes. -/
inductive Write where
  | insertTrustRecord (row : TrustRecordRow)
  | revokeTrustRecord (id version now : JsString)
  | insertGrant (row : GrantRow)
  | revokeGrant (id : ℕ) (now : JsString)
  | insertApproval (row : ApprovalRow)

/-- The tables after a statement. -/
def Tables.write (t : Tables) : Write → Tables
  | .insertTrustRecord row => t.insertTrustRecord row
  | .revokeTrustRecord id version now => t.revokeTrustRecord id version now
  | .insertGrant row => t.insertGrant row
  | .revokeGrant id now => t.revokeGrant id now
  | .insertApproval row => t.insertApproval row

/-- The tables after several statements. -/
def Tables.writeAll (t : Tables) (ws : List Write) : Tables := ws.foldl Tables.write t

/-! ### What lives -/

namespace Tables

/-- A record that is not revoked. -/
def LiveRecord (t : Tables) (r : TrustRecordRow) : Prop := r ∈ t.trustRecords ∧ r.revokedAt = none

/-- A grant that is not revoked. -/
def LiveGrant (t : Tables) (g : GrantRow) : Prop := g ∈ t.grants ∧ g.revokedAt = none

/-- An approval that is not revoked. -/
def LiveApproval (t : Tables) (a : ApprovalRow) : Prop := a ∈ t.approvals ∧ a.revokedAt = none

section Live

variable {t : Tables} {id : JsString} {r : TrustRecordRow} {g : GrantRow} {a : ApprovalRow}

theorem mem_listTrustRecords : r ∈ t.listTrustRecords ↔ t.LiveRecord r := by
  rw [listTrustRecords, (sortBy_perm _ _).mem_iff, List.mem_filter, Option.isNone_iff_eq_none]
  rfl

theorem mem_recordsOf : r ∈ t.recordsOf id ↔ t.LiveRecord r ∧ r.pluginId = id := by
  rw [recordsOf, List.mem_filter, mem_listTrustRecords, decide_eq_true_eq]

theorem mem_listGrants : g ∈ t.listGrants id ↔ t.LiveGrant g ∧ g.pluginId = id := by
  rw [listGrants, List.mem_filter, decide_eq_true_eq, Option.isNone_iff_eq_none]
  constructor
  · rintro ⟨hmem, hid, hlive⟩
    exact ⟨⟨hmem, hlive⟩, hid⟩
  · rintro ⟨⟨hmem, hlive⟩, hid⟩
    exact ⟨hmem, hid, hlive⟩

theorem mem_listApprovals : a ∈ t.listApprovals ↔ t.LiveApproval a := by
  rw [listApprovals, (sortBy_perm _ _).mem_iff, List.mem_filter, Option.isNone_iff_eq_none]
  rfl

theorem liveRecord_insertTrustRecord {row : TrustRecordRow} :
    (t.insertTrustRecord row).LiveRecord r ↔
      r = { row with revokedAt := none } ∨ t.LiveRecord r ∧ r.key ≠ row.key := by
  unfold LiveRecord insertTrustRecord
  rw [Table.mem_upsert]
  constructor
  · rintro ⟨rfl | ⟨hr, hkey⟩, hlive⟩
    · exact .inl rfl
    · exact .inr ⟨⟨hr, hlive⟩, hkey⟩
  · rintro (rfl | ⟨⟨hr, hlive⟩, hkey⟩)
    · exact ⟨.inl rfl, rfl⟩
    · exact ⟨.inr ⟨hr, hkey⟩, hlive⟩

theorem liveRecord_revokeTrustRecord {version now : JsString} :
    (t.revokeTrustRecord id version now).LiveRecord r ↔ t.LiveRecord r ∧ r.key ≠ (id, version) := by
  unfold LiveRecord revokeTrustRecord
  rw [Table.mem_update]
  constructor
  · rintro ⟨⟨y, hy, rfl⟩, hlive⟩
    split at hlive
    · cases hlive
    · rename_i hp
      rw [if_neg hp]
      refine ⟨⟨hy, hlive⟩, fun hkey => hp ?_⟩
      have := Prod.mk.inj hkey
      simp [this, hlive]
  · rintro ⟨⟨hr, hlive⟩, hkey⟩
    refine ⟨⟨r, hr, ?_⟩, hlive⟩
    rw [if_neg]
    intro hp
    rw [decide_eq_true_eq] at hp
    exact hkey (Prod.ext hp.1 hp.2.1)

theorem liveGrant_insertGrant {row : GrantRow} :
    (t.insertGrant row).LiveGrant g ↔ g = { row with id := t.lastGrantId + 1, revokedAt := none } ∨ t.LiveGrant g := by
  unfold LiveGrant insertGrant
  rw [Table.mem_upsert]
  constructor
  · rintro ⟨rfl | ⟨hg, -⟩, hlive⟩
    · exact .inl rfl
    · exact .inr ⟨hg, hlive⟩
  · rintro (rfl | ⟨hg, hlive⟩)
    · exact ⟨.inl rfl, rfl⟩
    · refine ⟨.inr ⟨hg, fun hid => ?_⟩, hlive⟩
      have := t.grant_id_le g hg
      rw [hid] at this
      exact absurd this (by simp)

theorem liveGrant_revokeGrant {n : ℕ} {now : JsString} :
    (t.revokeGrant n now).LiveGrant g ↔ t.LiveGrant g ∧ g.id ≠ n := by
  unfold LiveGrant revokeGrant
  rw [Table.mem_update]
  constructor
  · rintro ⟨⟨y, hy, rfl⟩, hlive⟩
    split at hlive
    · cases hlive
    · rename_i hp
      rw [if_neg hp]
      exact ⟨⟨hy, hlive⟩, fun hid => hp (by simp [hid, hlive])⟩
  · rintro ⟨⟨hg, hlive⟩, hid⟩
    refine ⟨⟨g, hg, ?_⟩, hlive⟩
    rw [if_neg]
    intro hp
    rw [decide_eq_true_eq] at hp
    exact hid hp.1

theorem liveApproval_insertApproval {row : ApprovalRow} :
    (t.insertApproval row).LiveApproval a ↔
      a = { row with revokedAt := none } ∨ t.LiveApproval a ∧ a.projectionHash ≠ row.projectionHash := by
  unfold LiveApproval insertApproval
  rw [Table.mem_upsert]
  constructor
  · rintro ⟨rfl | ⟨ha, hkey⟩, hlive⟩
    · exact .inl rfl
    · exact .inr ⟨⟨ha, hlive⟩, hkey⟩
  · rintro (rfl | ⟨⟨ha, hlive⟩, hkey⟩)
    · exact ⟨.inl rfl, rfl⟩
    · exact ⟨.inr ⟨ha, hkey⟩, hlive⟩

theorem liveApproval_revokeApproval {projectionHash now : JsString} :
    (t.revokeApproval projectionHash now).LiveApproval a ↔ t.LiveApproval a ∧ a.projectionHash ≠ projectionHash := by
  unfold LiveApproval revokeApproval
  rw [Table.mem_update]
  constructor
  · rintro ⟨⟨y, hy, rfl⟩, hlive⟩
    split at hlive
    · cases hlive
    · rename_i hp
      rw [if_neg hp]
      exact ⟨⟨hy, hlive⟩, fun hhash => hp (by simp [hhash, hlive])⟩
  · rintro ⟨⟨ha, hlive⟩, hhash⟩
    refine ⟨⟨a, ha, ?_⟩, hlive⟩
    rw [if_neg]
    intro hp
    rw [decide_eq_true_eq] at hp
    exact hhash hp.1

end Live

end Tables

/-! ### Keys -/

theorem nodup_listTrustRecords (t : Tables) : (t.listTrustRecords.map TrustRecordRow.key).Nodup := by
  have hperm : (t.listTrustRecords.map TrustRecordRow.key).Perm
      ((t.trustRecords.rows.filter fun r => r.revokedAt.isNone).map TrustRecordRow.key) :=
    (sortBy_perm _ _).map _
  exact hperm.nodup_iff.mpr ((List.filter_sublist.map _).nodup t.trustRecords.nodup)

theorem nodup_recordsOf (t : Tables) (id : JsString) : ((t.recordsOf id).map TrustRecordRow.key).Nodup := by
  have hsub : (t.recordsOf id).Sublist t.listTrustRecords := List.filter_sublist
  exact (hsub.map _).nodup (nodup_listTrustRecords t)

theorem nodup_listApprovals (t : Tables) : (t.listApprovals.map ApprovalRow.projectionHash).Nodup := by
  have hperm : (t.listApprovals.map ApprovalRow.projectionHash).Perm
      ((t.approvals.rows.filter fun a => a.revokedAt.isNone).map ApprovalRow.projectionHash) :=
    (sortBy_perm _ _).map _
  exact hperm.nodup_iff.mpr ((List.filter_sublist.map _).nodup t.approvals.nodup)

theorem nodup_listGrants (t : Tables) (id : JsString) : ((t.listGrants id).map GrantRow.id).Nodup :=
  (List.filter_sublist.map _).nodup t.grants.nodup

/-! ### Sequences of writes -/

section Sequences

variable {t : Tables} {r : TrustRecordRow} {g : GrantRow}

theorem writeAll_append (t : Tables) (ws ws' : List Write) : t.writeAll (ws ++ ws') = (t.writeAll ws).writeAll ws' :=
  List.foldl_append

/-- Revoking records one after the other. -/
theorem writeAll_revokeTrustRecord (t : Tables) (rs : List TrustRecordRow) (now : JsString) :
    (∀ r, (t.writeAll (rs.map fun r => .revokeTrustRecord r.pluginId r.version now)).LiveRecord r ↔
      t.LiveRecord r ∧ r.key ∉ rs.map TrustRecordRow.key) ∧
    (t.writeAll (rs.map fun r => .revokeTrustRecord r.pluginId r.version now)).grants = t.grants := by
  induction rs generalizing t with
  | nil => exact ⟨fun r => by simp [Tables.writeAll], rfl⟩
  | cons x rs ih =>
    obtain ⟨hrecords, hgrants⟩ := ih (t.revokeTrustRecord x.pluginId x.version now)
    refine ⟨fun r => ?_, hgrants⟩
    rw [List.map_cons, List.map_cons, List.mem_cons, not_or]
    refine (hrecords r).trans ?_
    rw [Tables.liveRecord_revokeTrustRecord, and_assoc]
    rfl

/-- Revoking grants one after the other. -/
theorem writeAll_revokeGrant (t : Tables) (gs : List GrantRow) (now : JsString) :
    (∀ g, (t.writeAll (gs.map fun g => .revokeGrant g.id now)).LiveGrant g ↔ t.LiveGrant g ∧ g.id ∉ gs.map GrantRow.id) ∧
    (t.writeAll (gs.map fun g => .revokeGrant g.id now)).trustRecords = t.trustRecords := by
  induction gs generalizing t with
  | nil => exact ⟨fun g => by simp [Tables.writeAll], rfl⟩
  | cons x gs ih =>
    obtain ⟨hgrants, hrecords⟩ := ih (t.revokeGrant x.id now)
    refine ⟨fun g => ?_, hrecords⟩
    rw [List.map_cons, List.map_cons, List.mem_cons, not_or]
    refine (hgrants g).trans ?_
    rw [Tables.liveGrant_revokeGrant, and_assoc]

/-- Inserting grants one after the other. -/
theorem writeAll_insertGrant (t : Tables) (gs : List GrantRow) :
    (∀ x, (∃ g, (t.writeAll (gs.map .insertGrant)).LiveGrant g ∧ g.content = x) ↔
      (∃ g, t.LiveGrant g ∧ g.content = x) ∨ ∃ g ∈ gs, g.content = x) ∧
    (t.writeAll (gs.map .insertGrant)).trustRecords = t.trustRecords := by
  induction gs generalizing t with
  | nil => exact ⟨fun x => by simp [Tables.writeAll], rfl⟩
  | cons row gs ih =>
    obtain ⟨hgrants, hrecords⟩ := ih (t.insertGrant row)
    refine ⟨fun x => (hgrants x).trans ?_, hrecords⟩
    simp only [Tables.liveGrant_insertGrant, List.mem_cons]
    constructor
    · rintro (⟨g, rfl | hg, rfl⟩ | ⟨g, hg, rfl⟩)
      · exact .inr ⟨row, .inl rfl, rfl⟩
      · exact .inl ⟨g, hg, rfl⟩
      · exact .inr ⟨g, .inr hg, rfl⟩
    · rintro (⟨g, hg, rfl⟩ | ⟨g, rfl | hg, rfl⟩)
      · exact .inl ⟨g, .inr hg, rfl⟩
      · exact .inl ⟨_, .inl rfl, rfl⟩
      · exact .inr ⟨g, hg, rfl⟩

end Sequences

end Wanfw.Orchestrator.StateStore
