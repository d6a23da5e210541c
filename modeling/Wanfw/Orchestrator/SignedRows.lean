import Mathlib.Logic.Function.Basic
import Wanfw.Orchestrator.Approve
import Wanfw.Orchestrator.TrustFlow

/-!
# Who signed the live rows

The requests of the admin socket that sign rows or change the key (`admin-socket.ts`,
`signing-key.ts`), each cut at its awaits. A rotation writes the key file, then changes the
key of the manager that it was called on, then signs every live row again. An import writes
the key file and puts a new manager in the holder; it signs nothing. A trust call takes the
holder's manager when it begins, and signs with the key that this manager has when it
records.

`live_rows_signed`: in a run in which key operations do not get into each other's way,
an import finds no live row or brings the key that is already there, and no trust call
outlives the manager it took, every live row verifies under the current key once nothing is in
flight, and that key is the one in the file.
-/

namespace Wanfw.Orchestrator.StateStore

open Wanfw.Js Wanfw.Store TrustFlow

/-! ### Properties of the live rows -/

/-- Every live row of a table satisfies the property for that table. -/
structure LiveRows (P : TrustRecordRow → Prop) (Q : GrantRow → Prop) (R : ApprovalRow → Prop) (t : Tables) : Prop where
  records : ∀ r, t.LiveRecord r → P r
  grants : ∀ g, t.LiveGrant g → Q g
  approvals : ∀ a, t.LiveApproval a → R a

/-- The row that a statement inserts satisfies the property, whatever number it gets. -/
def InsertsOnly (P : TrustRecordRow → Prop) (Q : GrantRow → Prop) (R : ApprovalRow → Prop) : Write → Prop
  | .insertTrustRecord row => P { row with revokedAt := none }
  | .insertGrant row => ∀ n, Q { row with id := n, revokedAt := none }
  | .insertApproval row => R { row with revokedAt := none }
  | _ => True

section LiveRows

variable {P : TrustRecordRow → Prop} {Q : GrantRow → Prop} {R : ApprovalRow → Prop} {t : Tables}

theorem LiveRows.write (h : LiveRows P Q R t) {w : Write} (hw : InsertsOnly P Q R w) : LiveRows P Q R (t.write w) := by
  obtain ⟨hrecords, hgrants, happrovals⟩ := h
  cases w with
  | insertTrustRecord row =>
    refine ⟨fun r hr => ?_, hgrants, happrovals⟩
    rcases Tables.liveRecord_insertTrustRecord.mp hr with rfl | ⟨hr, -⟩
    · exact hw
    · exact hrecords r hr
  | revokeTrustRecord id version now =>
    exact ⟨fun r hr => hrecords r (Tables.liveRecord_revokeTrustRecord.mp hr).1, hgrants, happrovals⟩
  | insertGrant row =>
    refine ⟨hrecords, fun g hg => ?_, happrovals⟩
    rcases Tables.liveGrant_insertGrant.mp hg with rfl | hg
    · exact hw _
    · exact hgrants g hg
  | revokeGrant id now => exact ⟨hrecords, fun g hg => hgrants g (Tables.liveGrant_revokeGrant.mp hg).1, happrovals⟩
  | insertApproval row =>
    refine ⟨hrecords, hgrants, fun a ha => ?_⟩
    rcases Tables.liveApproval_insertApproval.mp ha with rfl | ⟨ha, -⟩
    · exact hw
    · exact happrovals a ha

theorem LiveRows.writeAll (h : LiveRows P Q R t) {ws : List Write} (hws : ∀ w ∈ ws, InsertsOnly P Q R w) :
    LiveRows P Q R (t.writeAll ws) := by
  induction ws generalizing t with
  | nil => exact h
  | cons w ws ih => exact ih (h.write (hws w (by simp))) fun w' hw' => hws w' (by simp [hw'])

end LiveRows

/-! ### Signing everything again -/

/-- `UPDATE trust_records SET sig = ? WHERE plugin_id = ? AND version = ?`. -/
def setRecordSig (t : Tables) (key : JsString × JsString) (sig : JsString) : Tables :=
  let signed := t.trustRecords.update (fun r => r.key = key) (fun r => { r with sig := sig }) fun _ => rfl
  { t with trustRecords := signed }

/-- `UPDATE grants SET sig = ? WHERE id = ?`. -/
def setGrantSig (t : Tables) (id : ℕ) (sig : JsString) : Tables where
  trustRecords := t.trustRecords
  grants := t.grants.update (fun g => g.id = id) (fun g => { g with sig := sig }) fun _ => rfl
  approvals := t.approvals
  lastGrantId := t.lastGrantId
  grant_id_le := by
    intro g hg
    obtain ⟨g', hg', rfl⟩ := Table.mem_update.mp hg
    have := t.grant_id_le g' hg'
    split
    · exact this
    · exact this

/-- `UPDATE approvals SET sig = ? WHERE projection_hash = ?`. -/
def setApprovalSig (t : Tables) (projectionHash sig : JsString) : Tables :=
  let signed := t.approvals.update (fun a => a.projectionHash = projectionHash) (fun a => { a with sig := sig }) fun _ => rfl
  { t with approvals := signed }

/-- `allGrants`. -/
def allGrants (t : Tables) : List GrantRow := t.grants.rows.filter fun g => g.revokedAt.isNone

section Signing

variable {κ : Type} (N : Numerals) (S : SignatureScheme κ) (key : κ)

/-- What is signed of a trust record. -/
def recordPayload (r : TrustRecordRow) : Option JsString :=
  canonicalTrustRecordPayload N r.pluginId r.version r.sha256 r.grantedCapsJson

/-- What is signed of a grant. -/
def grantPayload (g : GrantRow) : Option JsString := canonicalGrantPayload N g.pluginId g.cap g.scopeJson

/-- What is signed of an approval. -/
def approvalPayload (a : ApprovalRow) : JsString := canonicalApprovalPayload a.projectionHash a.serviceId a.humanRendering

/-- `reSignAll`. -/
def reSignAll : Act Tables Unit := do
  Act.forEach (← Act.get).listTrustRecords fun record => do
    let payload ← Act.ofExcept (orThrow (recordPayload N record))
    Act.modify fun t => setRecordSig t record.key (S.sign key payload)
  Act.forEach (allGrants (← Act.get)) fun grant => do
    let payload ← Act.ofExcept (orThrow (grantPayload N grant))
    Act.modify fun t => setGrantSig t grant.id (S.sign key payload)
  Act.forEach (← Act.get).listApprovals fun approval =>
    Act.modify fun t => setApprovalSig t approval.projectionHash (S.sign key (approvalPayload approval))

/-- A text verifies under the key. -/
def Verifies (payload : Option JsString) (sig : JsString) : Prop := ∃ p, payload = some p ∧ S.verify key p (.str sig) = true

/-- Every live row verifies under the key, over its canonical payload. -/
def AllSigned : Tables → Prop :=
  LiveRows (fun r => Verifies S key (recordPayload N r) r.sig) (fun g => Verifies S key (grantPayload N g) g.sig)
    fun a => Verifies S key (some (approvalPayload a)) a.sig

/-- Every live row has a canonical payload. -/
def Readable : Tables → Prop :=
  LiveRows (fun r => (recordPayload N r).isSome) (fun g => (grantPayload N g).isSome) fun _ => True

variable {N S key} {t : Tables}

theorem AllSigned.readable (h : AllSigned N S key t) : Readable N t := by
  refine ⟨fun r hr => ?_, fun g hg => ?_, fun _ _ => trivial⟩
  · obtain ⟨p, hp, -⟩ := h.records r hr
    rw [hp]
    rfl
  · obtain ⟨p, hp, -⟩ := h.grants g hg
    rw [hp]
    rfl

theorem verifies_sign {payload : Option JsString} {p : JsString} (hp : payload = some p) :
    Verifies S key payload (S.sign key p) := ⟨p, hp, S.verify_sign key p⟩

/-- The loop over the trust records. -/
theorem reSign_records (h : ∀ r, t.LiveRecord r → (recordPayload N r).isSome) :
    Act.Triple (fun s => s = t)
      (Act.forEach t.listTrustRecords fun record => do
        let payload ← Act.ofExcept (orThrow (recordPayload N record))
        Act.modify fun t => setRecordSig t record.key (S.sign key payload))
      (fun _ s => (∀ r, s.LiveRecord r → Verifies S key (recordPayload N r) r.sig) ∧ s.grants = t.grants)
      fun _ _ => False := by
  refine Act.Triple.conseq (Act.Triple.forEachLeft (I := fun todo s =>
      s.trustRecords.Pending (fun r => r.revokedAt = none) (fun r => Verifies S key (recordPayload N r) r.sig) todo ∧
        (∀ r ∈ todo, (recordPayload N r).isSome) ∧ s.grants = t.grants) (fun r todo => ?_) _) ?_ ?_ fun _ _ h => h
  · intro s hs
    obtain ⟨p, hp⟩ := Option.isSome_iff_exists.mp (hs.2.1 r (by simp))
    simp only [hp]
    exact ⟨hs.1.update (by exact fun _ => rfl) (verifies_sign hp), fun x hx => hs.2.1 x (by simp [hx]), hs.2.2⟩
  · rintro s rfl
    refine ⟨⟨nodup_listTrustRecords s, fun r hr => (Tables.mem_listTrustRecords.mp hr).1, fun r hr hlive => ?_⟩,
      fun r hr => h r (Tables.mem_listTrustRecords.mp hr), rfl⟩
    exact .inr (Tables.mem_listTrustRecords.mpr ⟨hr, hlive⟩)
  · intro _ s hs
    refine ⟨fun r hr => ?_, hs.2.2⟩
    simpa using hs.1.rest r hr.1 hr.2

/-- The loop over the grants. -/
theorem reSign_grants (h : ∀ g, t.LiveGrant g → (grantPayload N g).isSome) :
    Act.Triple (fun s => s = t)
      (Act.forEach (allGrants t) fun grant => do
        let payload ← Act.ofExcept (orThrow (grantPayload N grant))
        Act.modify fun t => setGrantSig t grant.id (S.sign key payload))
      (fun _ s => (∀ g, s.LiveGrant g → Verifies S key (grantPayload N g) g.sig) ∧ s.trustRecords = t.trustRecords)
      fun _ _ => False := by
  have hmem : ∀ g, g ∈ allGrants t ↔ t.LiveGrant g := by
    intro g
    rw [allGrants, List.mem_filter, Option.isNone_iff_eq_none]
    rfl
  refine Act.Triple.conseq (Act.Triple.forEachLeft (I := fun todo s =>
      s.grants.Pending (fun g => g.revokedAt = none) (fun g => Verifies S key (grantPayload N g) g.sig) todo ∧
        (∀ g ∈ todo, (grantPayload N g).isSome) ∧ s.trustRecords = t.trustRecords) (fun g todo => ?_) _) ?_ ?_ fun _ _ h => h
  · intro s hs
    obtain ⟨p, hp⟩ := Option.isSome_iff_exists.mp (hs.2.1 g (by simp))
    simp only [hp]
    exact ⟨hs.1.update (by exact fun _ => rfl) (verifies_sign hp), fun x hx => hs.2.1 x (by simp [hx]), hs.2.2⟩
  · rintro s rfl
    refine ⟨⟨(List.filter_sublist.map _).nodup s.grants.nodup, fun g hg => ((hmem g).mp hg).1, fun g hg hlive => ?_⟩,
      fun g hg => h g ((hmem g).mp hg), rfl⟩
    exact .inr ((hmem g).mpr ⟨hg, hlive⟩)
  · intro _ s hs
    refine ⟨fun g hg => ?_, hs.2.2⟩
    simpa using hs.1.rest g hg.1 hg.2

/-- The loop over the approvals. -/
theorem reSign_approvals :
    Act.Triple (fun s => s = t)
      (Act.forEach t.listApprovals fun approval =>
        Act.modify fun t => setApprovalSig t approval.projectionHash (S.sign key (approvalPayload approval)))
      (fun _ s => (∀ a, s.LiveApproval a → Verifies S key (some (approvalPayload a)) a.sig) ∧
        s.trustRecords = t.trustRecords ∧ s.grants = t.grants)
      fun _ _ => False := by
  refine Act.Triple.conseq (Act.Triple.forEachLeft (I := fun todo s =>
      s.approvals.Pending (fun a => a.revokedAt = none) (fun a => Verifies S key (some (approvalPayload a)) a.sig) todo ∧
        s.trustRecords = t.trustRecords ∧ s.grants = t.grants) (fun a todo => ?_) _) ?_ ?_ fun _ _ h => h
  · intro s hs
    exact ⟨hs.1.update (by exact fun _ => rfl) (verifies_sign rfl), hs.2⟩
  · rintro s rfl
    refine ⟨⟨nodup_listApprovals s, fun a ha => (Tables.mem_listApprovals.mp ha).1, fun a ha hlive => ?_⟩, rfl, rfl⟩
    exact .inr (Tables.mem_listApprovals.mpr ⟨ha, hlive⟩)
  · intro _ s hs
    refine ⟨fun a ha => ?_, hs.2⟩
    simpa using hs.1.rest a ha.1 ha.2

/-- **`reSignAll` signs every live row**, and does not throw where every live row has a canonical payload. -/
theorem reSignAll_spec : Act.Triple (Readable N) (reSignAll N S key) (fun _ => AllSigned N S key) fun _ _ => False := by
  refine Act.Triple.getBind fun t ht => Act.Triple.bind (reSign_records ht.records) fun _ => ?_
  refine Act.Triple.getBind fun t₁ ht₁ => Act.Triple.bind (Act.Triple.conseq (reSign_grants ?_) (fun _ h => h)
    (fun _ s hs => And.intro hs (fun r (hr : s.LiveRecord r) => ht₁.1 r ⟨hs.2 ▸ hr.1, hr.2⟩)) fun _ _ h => h) fun _ => ?_
  · intro g hg
    exact ht.grants g ⟨ht₁.2 ▸ hg.1, hg.2⟩
  · refine Act.Triple.getBind fun t₂ ht₂ => Act.Triple.conseq reSign_approvals (fun _ h => h) (fun _ s hs => ?_) fun _ _ h => h
    refine ⟨fun r hr => ht₂.2 r ⟨hs.2.1 ▸ hr.1, hr.2⟩, fun g hg => ht₂.1.1 g ⟨hs.2.2 ▸ hg.1, hg.2⟩, hs.1⟩

end Signing

/-! ### Requests in flight -/

/-- A request in flight, at one of its awaits. -/
inductive Task (κ : Type) where
  /-- A rotation of this manager: the file with the new key is not in place yet. -/
  | rotateWriting (manager : ℕ) (key : κ)
  /-- The file is in place, the manager still has the key it had. -/
  | rotateWritten (manager : ℕ) (key : κ)
  /-- The manager has the new key, the handler is to go on. -/
  | reSigning
  | importWriting (key : κ)
  | importWritten (key : κ)
  /-- A trust call with the manager it took: the staged bundle is looked for and copied. -/
  | trusting (manager : ℕ) (id sha256 : JsString)
  /-- The files of the next built-in are read. -/
  | readingBuiltins (builtins : List Builtin)
  /-- The files of a built-in are written. -/
  | trustingBuiltin (manager : ℕ) (builtin : Builtin) (rest : List Builtin)
  /-- The schema is published, or something else that leaves rows and keys alone. -/
  | publishing

/-- The key that a task has put in the file and is yet to put in place. -/
def Task.written {κ : Type} : Task κ → Option κ
  | .rotateWritten _ key => some key
  | .importWritten key => some key
  | _ => none

/-- What the requests share. Managers are objects: a number each, with the key that it has now. -/
structure Admin (κ : Type) where
  tables : Tables
  managers : ℕ → κ
  /-- The managers that were made so far. -/
  count : ℕ
  /-- `signingKeyHolder.manager`. -/
  holder : ℕ
  /-- The key in the signing key file. -/
  file : κ
  tasks : ℕ → Option (Task κ)

/-- What can happen. A request has a number that no other one in flight has. -/
inductive Event (κ : Type) where
  /-- `POST /key/rotate`, with the key that is generated. -/
  | rotate (request : ℕ) (key : κ)
  /-- `POST /key/import`. -/
  | importKey (request : ℕ) (key : κ)
  /-- `POST /plugins/trust`. -/
  | trust (request : ℕ) (id sha256 : JsString)
  /-- `POST /plugins/trust-builtins`, with the built-ins that the plugin host will list. -/
  | trustBuiltins (request : ℕ) (builtins : List Builtin)
  /-- `POST /plugins/untrust`: one block. -/
  | untrust (id now : JsString)
  /-- `POST /plans/approve`: one block, on the gate snapshot of the moment. -/
  | approve (services : Obj GatedService) (serviceId projectionHash : Option JsString) (now : JsString)
  /-- What a request waits for has come; a trust call finds the staging area like this. -/
  | resume (request : ℕ) (staged : List StagedBundle) (now : JsString)
  /-- What a request waits for has failed. -/
  | fail (request : ℕ)

namespace Admin

variable {κ : Type} (N : Numerals) (S : SignatureScheme κ)

/-- The current key. -/
def key (s : Admin κ) : κ := s.managers s.holder

/-- No request is in flight. -/
def Quiet (s : Admin κ) : Prop := ∀ request, s.tasks request = none

/-- Every live row is signed by the current key, and this is the key in the file. -/
def Sound (s : Admin κ) : Prop := AllSigned N S s.key s.tables ∧ s.file = s.key

/-- A request goes on to another await, or ends. -/
def setTask (s : Admin κ) (request : ℕ) (task : Option (Task κ)) : Admin κ :=
  { s with tasks := Function.update s.tasks request task }

/-- A request begins. -/
def begin (s : Admin κ) (request : ℕ) (task : Task κ) : Admin κ :=
  match s.tasks request with
  | none => s.setTask request (some task)
  | some _ => s

/-- `recordTrustAndGrants`, with the key that a manager has now. -/
def record (s : Admin κ) (manager : ℕ) (now : JsString) (manifest : Manifest) (sha256 : JsString) : Admin κ :=
  match recordTrustAndGrants N S (s.managers manager) now manifest sha256 with
  | .ok writes => { s with tables := s.tables.writeAll writes }
  | .error _ => s

/-- The next block of a request, up to its next await. -/
def resume (s : Admin κ) (request : ℕ) (staged : List StagedBundle) (now : JsString) : Admin κ :=
  match s.tasks request with
  | none => s
  | some (.rotateWriting manager key) => { s with file := key }.setTask request (some (.rotateWritten manager key))
  | some (.rotateWritten manager key) =>
    { s with managers := Function.update s.managers manager key }.setTask request (some .reSigning)
  | some .reSigning => { s with tables := (reSignAll N S s.key s.tables).2 }.setTask request none
  | some (.importWriting key) => { s with file := key }.setTask request (some (.importWritten key))
  | some (.importWritten key) =>
    -- a new manager, and nothing is signed again
    { s with managers := Function.update s.managers s.count key, count := s.count + 1, holder := s.count }.setTask request none
  | some (.trusting manager id sha256) =>
    match (findStagedBundle staged id sha256).bind StagedBundle.manifest with
    | none => s.setTask request none
    | some manifest => (s.record N S manager now manifest sha256).setTask request (some .publishing)
  | some (.readingBuiltins []) => s.setTask request (some .publishing)
  | some (.readingBuiltins (builtin :: rest)) => s.setTask request (some (.trustingBuiltin s.holder builtin rest))
  | some (.trustingBuiltin manager builtin rest) =>
    (s.record N S manager now builtin.manifest builtin.sha256).setTask request (some (.readingBuiltins rest))
  | some .publishing => s.setTask request none

/-- A request ends with an error. A rotation that is to sign again waits for nothing that can fail. -/
def fail (s : Admin κ) (request : ℕ) : Admin κ :=
  match s.tasks request with
  | some .reSigning => s
  | _ => s.setTask request none

/-- The state after an event. -/
def step (s : Admin κ) : Event κ → Admin κ
  | .rotate request key => s.begin request (.rotateWriting s.holder key)
  | .importKey request key => s.begin request (.importWriting key)
  | .trust request id sha256 => s.begin request (.trusting s.holder id sha256)
  | .trustBuiltins request builtins => s.begin request (.readingBuiltins builtins)
  | .untrust id now =>
    match untrustPlugin (⟨s.key, [], now⟩ : TrustFlowDeps κ) id s.tables with
    | .ok outcome => { s with tables := s.tables.writeAll outcome.writes }
    | .error _ => s
  | .approve services serviceId projectionHash now =>
    match approvePlan S s.key now services serviceId projectionHash with
    | some (row, _) => { s with tables := s.tables.insertApproval row }
    | none => s
  | .resume request staged now => s.resume N S request staged now
  | .fail request => s.fail request

/-- The state after a sequence of events. -/
def run (s : Admin κ) (events : List (Event κ)) : Admin κ := events.foldl (step N S) s

end Admin

/-! ### Events that keep the rows signed -/

section Safe

variable {κ : Type}

/-- No row lives. -/
def Tables.NothingLive : Tables → Prop := LiveRows (fun _ => False) (fun _ => False) fun _ => False

/-- A rotation is about to sign everything again. -/
def Admin.WillReSign (s : Admin κ) : Prop := ∃ request, s.tasks request = some .reSigning

/-- The next block of a task does no harm.
A rotation puts its key in place in the holder's manager, and the file still has that key. An import does so while the
file has its key, and either that is the current key, or no row lives, or a rotation will sign everything again. A trust
call records with a manager that has the current key, or a rotation will sign everything again. -/
def Task.Safe (s : Admin κ) : Task κ → Prop
  | .rotateWritten manager key => manager = s.holder ∧ s.file = key
  | .importWritten key => s.file = key ∧ (key = s.key ∨ s.tables.NothingLive ∨ s.WillReSign)
  | .trusting manager _ _ => s.managers manager = s.key ∨ s.WillReSign
  | .trustingBuiltin manager _ _ => s.managers manager = s.key ∨ s.WillReSign
  | _ => True

/-- An event does no harm. A key operation does not fail between writing the file and putting the key in place. -/
def Event.Safe (s : Admin κ) : Event κ → Prop
  | .resume request _ _ => ∀ task, s.tasks request = some task → task.Safe s
  | .fail request => ∀ task, s.tasks request = some task → task.written = none
  | _ => True

end Safe

/-! ### The invariant -/

section Invariant

variable {κ : Type} (N : Numerals) (S : SignatureScheme κ)

/-- The rows are signed by the current key or will be, and the file has the current key or one that will be put in
place. -/
structure Admin.Inv (s : Admin κ) : Prop where
  readable : Readable N s.tables
  rows : AllSigned N S s.key s.tables ∨ s.WillReSign
  file : s.file = s.key ∨ ∃ request task, s.tasks request = some task ∧ task.written = some s.file

variable {N S} {s : Admin κ} {request : ℕ}

theorem Admin.Inv.sound (h : s.Inv N S) (hquiet : s.Quiet) : s.Sound N S := by
  refine ⟨h.rows.resolve_right ?_, h.file.resolve_right ?_⟩
  · rintro ⟨request, htask⟩
    rw [hquiet request] at htask
    cases htask
  · rintro ⟨request, task, htask, -⟩
    rw [hquiet request] at htask
    cases htask

theorem Admin.Sound.inv (h : s.Sound N S) : s.Inv N S := ⟨h.1.readable, .inl h.1, .inl h.2⟩

theorem tasks_setTask_of_ne {task : Option (Task κ)} {other : ℕ} {t : Task κ} (hne : s.tasks request ≠ some t)
    (hother : s.tasks other = some t) : (s.setTask request task).tasks other = some t := by
  have : other ≠ request := by
    rintro rfl
    exact hne hother
  exact (Function.update_of_ne this _ _).trans hother

theorem Admin.WillReSign.setTask (h : s.WillReSign) (hne : s.tasks request ≠ some .reSigning) (task : Option (Task κ)) :
    (s.setTask request task).WillReSign := by
  obtain ⟨other, hother⟩ := h
  exact ⟨other, tasks_setTask_of_ne hne hother⟩

/-- A task that owes nothing goes on. -/
theorem Admin.Inv.setTask (h : s.Inv N S) (hne : s.tasks request ≠ some .reSigning)
    (hold : ∀ task, s.tasks request = some task → task.written = none) (task : Option (Task κ)) :
    (s.setTask request task).Inv N S := by
  refine ⟨h.readable, h.rows.imp id fun hwill => hwill.setTask hne task, h.file.imp id ?_⟩
  rintro ⟨other, t, hother, hwritten⟩
  refine ⟨other, t, tasks_setTask_of_ne (fun heq => ?_) hother, hwritten⟩
  rw [hold t heq] at hwritten
  cases hwritten

theorem Admin.Inv.begin (h : s.Inv N S) (task : Task κ) : (s.begin request task).Inv N S := by
  unfold Admin.begin
  split
  · rename_i hnone
    exact h.setTask (by simp [hnone]) (by simp [hnone]) _
  · exact h

/-- Other rows, as long as they are signed where the old ones were. -/
theorem Admin.Inv.tables (h : s.Inv N S) {t : Tables} (hreadable : Readable N t)
    (hsigned : AllSigned N S s.key s.tables → AllSigned N S s.key t ∨ s.WillReSign) :
    Admin.Inv N S { s with tables := t } :=
  ⟨hreadable, h.rows.elim hsigned .inr, h.file⟩

/-! ### The blocks -/

theorem insertsOnly_record {P : TrustRecordRow → Prop} {Q : GrantRow → Prop} {R : ApprovalRow → Prop} {key : κ}
    {now sha256 : JsString} {m : Manifest} {writes : List Write}
    (hwrites : recordTrustAndGrants N S key now m sha256 = .ok writes)
    (hP : P (signedRecord S key now m sha256))
    (hQ : ∀ c n, Q { signedGrant S key now m c with id := n }) : ∀ w ∈ writes, InsertsOnly P Q R w := by
  rw [recordTrustAndGrants_eq] at hwrites
  cases hwrites
  refine List.forall_mem_cons.mpr ⟨hP, fun w hw => ?_⟩
  obtain ⟨g, hg, rfl⟩ := List.mem_map.mp hw
  obtain ⟨c, -, rfl⟩ := List.mem_map.mp hg
  exact fun n => hQ c n

theorem Admin.Inv.record (h : s.Inv N S) {manager : ℕ} (hsafe : s.managers manager = s.key ∨ s.WillReSign)
    (now : JsString) (m : Manifest) (sha256 : JsString) : (s.record N S manager now m sha256).Inv N S := by
  unfold Admin.record
  split
  · rename_i writes hwrites
    have hrecord : recordPayload N (signedRecord S (s.managers manager) now m sha256) = _ :=
      canonicalTrustRecordPayload_eq m sha256
    have hgrant : ∀ c n, grantPayload N { signedGrant S (s.managers manager) now m c with id := n } = _ :=
      fun c n => canonicalGrantPayload_eq m c
    refine h.tables (h.readable.writeAll (insertsOnly_record hwrites ?_ fun c n => ?_)) fun hsigned => ?_
    · rw [hrecord]
      rfl
    · rw [hgrant]
      rfl
    · refine hsafe.imp (fun hkey => ?_) id
      rw [hkey] at hwrites hrecord hgrant
      exact hsigned.writeAll (insertsOnly_record hwrites (verifies_sign hrecord) fun c n => verifies_sign (hgrant c n))
  · exact h

theorem tasks_record (manager : ℕ) (now : JsString) (m : Manifest) (sha256 : JsString) :
    (s.record N S manager now m sha256).tasks = s.tasks := by
  unfold Admin.record
  split <;> rfl

/-- The file of a key operation is in place. -/
theorem Admin.Inv.fileWritten (h : s.Inv N S) (hne : s.tasks request ≠ some .reSigning) {key : κ} {task : Task κ}
    (hwritten : task.written = some key) : (Admin.setTask { s with file := key } request (some task)).Inv N S :=
  ⟨h.readable, h.rows.imp id fun hwill => hwill.setTask (s := { s with file := key }) hne _,
    .inr ⟨request, task, Function.update_self _ _ _, hwritten⟩⟩

theorem Admin.Inv.resume (h : s.Inv N S) {staged : List StagedBundle} {now : JsString}
    (hsafe : ∀ task, s.tasks request = some task → task.Safe s) : (s.resume N S request staged now).Inv N S := by
  unfold Admin.resume
  cases htask : s.tasks request with
  | none => exact h
  | some task =>
    have hsafe := hsafe task htask
    -- the blocks that leave keys and file alone
    have hplain : task ≠ .reSigning → task.written = none → ∀ s' : Admin κ, s'.Inv N S → s'.tasks = s.tasks →
        ∀ next, (s'.setTask request next).Inv N S := by
      intro hne hwritten s' hs' htasks next
      refine hs'.setTask ?_ ?_ next
      · rw [htasks, htask]
        simpa using hne
      · rw [htasks, htask]
        simpa using hwritten
    cases task with
    | rotateWriting manager key => exact h.fileWritten (by simp [htask]) rfl
    | rotateWritten manager key =>
      obtain ⟨rfl, hfile⟩ := hsafe
      refine ⟨h.readable, .inr ⟨request, Function.update_self _ _ _⟩, .inl ?_⟩
      exact hfile.trans (Function.update_self s.holder key s.managers).symm
    | reSigning =>
      have hsigned : AllSigned N S s.key (reSignAll N S s.key s.tables).2 :=
        reSignAll_spec.final h.readable (fun _ _ hs => hs) fun _ _ hfalse => hfalse.elim
      refine ⟨hsigned.readable, .inl hsigned, h.file.imp id ?_⟩
      rintro ⟨other, t, hother, hwritten⟩
      refine ⟨other, t, tasks_setTask_of_ne (s := s) (fun heq => ?_) hother, hwritten⟩
      rw [htask] at heq
      cases heq
      cases hwritten
    | importWriting key => exact h.fileWritten (by simp [htask]) rfl
    | importWritten key =>
      obtain ⟨hfile, hrows⟩ := hsafe
      have hkey : Function.update s.managers s.count key s.count = key := Function.update_self _ _ _
      have hwill : s.WillReSign → Admin.WillReSign { s with tasks := Function.update s.tasks request none } :=
        fun hwill => hwill.setTask (by simp [htask]) none
      refine ⟨h.readable, ?_, .inl (hfile.trans hkey.symm)⟩
      change AllSigned N S (Function.update s.managers s.count key s.count) s.tables ∨ _
      rw [hkey]
      rcases hrows with rfl | hnothing | hwill'
      · exact h.rows.imp id hwill
      · exact .inl ⟨fun r hr => (hnothing.records r hr).elim, fun g hg => (hnothing.grants g hg).elim,
          fun a ha => (hnothing.approvals a ha).elim⟩
      · exact .inr (hwill hwill')
    | trusting manager id sha256 =>
      dsimp only
      split
      · exact hplain (by simp) rfl s h rfl _
      · exact hplain (by simp) rfl _ (h.record hsafe _ _ _) (tasks_record _ _ _ _) _
    | readingBuiltins builtins =>
      cases builtins with
      | nil => exact hplain (by simp) rfl s h rfl _
      | cons builtin rest => exact hplain (by simp) rfl s h rfl _
    | trustingBuiltin manager builtin rest =>
      exact hplain (by simp) rfl _ (h.record hsafe _ _ _) (tasks_record _ _ _ _) _
    | publishing => exact hplain (by simp) rfl s h rfl _

theorem Admin.Inv.fail (h : s.Inv N S) (hsafe : ∀ task, s.tasks request = some task → task.written = none) :
    (s.fail request).Inv N S := by
  unfold Admin.fail
  split
  · exact h
  · rename_i hne
    exact h.setTask hne hsafe none

theorem Admin.Inv.untrust (h : s.Inv N S) (id now : JsString) : (s.step N S (.untrust id now)).Inv N S := by
  unfold Admin.step
  dsimp only
  split
  · rename_i outcome houtcome
    have honly : ∀ {P Q R}, ∀ w ∈ outcome.writes, InsertsOnly P Q R w := by
      intro P Q R w hw
      unfold untrustPlugin at houtcome
      dsimp only at houtcome
      split at houtcome
      · cases houtcome
      · cases houtcome
        rcases List.mem_append.mp hw with hw | hw
        · obtain ⟨r, -, rfl⟩ := List.mem_map.mp hw
          trivial
        · obtain ⟨g, -, rfl⟩ := List.mem_map.mp hw
          trivial
    exact h.tables (h.readable.writeAll honly) fun hsigned => .inl (hsigned.writeAll honly)
  · exact h

theorem Admin.Inv.approve (h : s.Inv N S) (services : Obj GatedService) (serviceId projectionHash : Option JsString)
    (now : JsString) : (s.step N S (.approve services serviceId projectionHash now)).Inv N S := by
  unfold Admin.step
  dsimp only
  split
  · rename_i row audit hrow
    obtain ⟨plan, -, heq⟩ := Option.map_eq_some_iff.mp hrow
    cases heq
    refine h.tables (h.readable.write (w := .insertApproval _) trivial) fun hsigned => .inl ?_
    exact hsigned.write (w := .insertApproval _) (verifies_sign rfl)
  · exact h

/-- **One event.** -/
theorem Admin.Inv.step (h : s.Inv N S) {e : Event κ} (hsafe : e.Safe s) : (s.step N S e).Inv N S := by
  cases e with
  | rotate request key => exact h.begin _
  | importKey request key => exact h.begin _
  | trust request id sha256 => exact h.begin _
  | trustBuiltins request builtins => exact h.begin _
  | untrust id now => exact h.untrust id now
  | approve services serviceId projectionHash now => exact h.approve services serviceId projectionHash now
  | resume request staged now => exact h.resume hsafe
  | fail request => exact h.fail hsafe

variable (N S) in
/-- **Every live row is signed by the current key.** From a state in which nothing is in flight, every live row verifies
under the current key and the file has that key, take any interleaving of requests whose blocks all do no harm. Whenever
nothing is in flight, every live row verifies under the current key, and the file has that key. -/
theorem live_rows_signed (s : Admin κ) (hsound : s.Sound N S) (events : List (Event κ))
    (hsafe : ∀ pre e, pre ++ [e] <+: events → e.Safe (s.run N S pre)) :
    ∀ pre, pre <+: events → (s.run N S pre).Quiet → (s.run N S pre).Sound N S := by
  have hinv : ∀ pre, pre <+: events → (s.run N S pre).Inv N S := by
    intro pre hinit
    induction pre using List.reverseRecOn with
    | nil => exact hsound.inv
    | append_singleton pre e ih =>
      have hrun : s.run N S (pre ++ [e]) = (s.run N S pre).step N S e := List.foldl_concat _ _ _ _
      rw [hrun]
      exact (ih ((List.prefix_append pre [e]).trans hinit)).step (hsafe pre e hinit)
  exact fun pre hinit hquiet => (hinv pre hinit).sound hquiet

end Invariant

/-! An approval, and another key after it. -/

/-- A new store, with a key. -/
def Admin.start {κ : Type} (key : κ) : Admin κ := ⟨.empty, fun _ => key, 1, 0, key, fun _ => none⟩

/-- A plan for the service `web`. -/
def webService : GatedService := ⟨js "web", .powerful, js "7e0c", js "web: device", false, []⟩

/-- The plan is approved. -/
def approveWeb : Event JsString := .approve [(js "web", webService)] (some (js "web")) none (js "2025-01-01T00:00:00.000Z")

/-- The approval, signed with the first key. -/
def webApproval : ApprovalRow := approvalRow sampleScheme (js "first") (js "2025-01-01T00:00:00.000Z") webService

theorem sound_start {κ : Type} (N : Numerals) (S : SignatureScheme κ) (key : κ) : (Admin.start key).Sound N S :=
  ⟨⟨fun _ h => absurd h.1 List.not_mem_nil, fun _ h => absurd h.1 List.not_mem_nil,
    fun _ h => absurd h.1 List.not_mem_nil⟩, rfl⟩

theorem eq_take_of_concat_prefix {α : Type} {pre xs : List α} {x : α} (h : pre ++ [x] <+: xs) :
    ∃ i < xs.length, pre = xs.take i ∧ xs[i]? = some x := by
  obtain ⟨t, rfl⟩ := h
  refine ⟨pre.length, by simp, by simp, by simp⟩

/-- Approve, rotate, and let the rotation go on to its end. -/
def rotateEvents : List (Event JsString) :=
  [approveWeb, .rotate 0 (js "second"), .resume 0 [] [], .resume 0 [] [], .resume 0 [] []]

/-- After a rotation the approval is signed with the second key. -/
theorem rotated_rows_signed :
    ((Admin.start (js "first")).run Numerals.exact sampleScheme rotateEvents).Sound Numerals.exact sampleScheme := by
  refine live_rows_signed Numerals.exact sampleScheme _ (sound_start _ _ _) rotateEvents ?_ _ List.prefix_rfl ?_
  · intro pre e hinit
    obtain ⟨i, hi, rfl, he⟩ := eq_take_of_concat_prefix hinit
    have hi : i < 5 := hi
    interval_cases i
    · cases he
      trivial
    · cases he
      trivial
    · cases he
      rintro task ⟨⟩
      trivial
    · cases he
      rintro task ⟨⟩
      exact ⟨rfl, rfl⟩
    · cases he
      rintro task ⟨⟩
      trivial
  · intro request
    cases request with
    | zero => rfl
    | succ n => rfl

/-- An import leaves the approval with a signature of the first key. -/
theorem imported_key_orphans_approval :
    ¬ ∀ events : List (Event JsString), ((Admin.start (js "first")).run Numerals.exact sampleScheme events).Quiet →
      ((Admin.start (js "first")).run Numerals.exact sampleScheme events).Sound Numerals.exact sampleScheme := by
  intro hclaim
  have hsound := hclaim [approveWeb, .importKey 0 (js "second"), .resume 0 [] [], .resume 0 [] []] ?_
  · obtain ⟨p, hp, hverify⟩ := hsound.1.approvals webApproval ⟨List.mem_singleton_self _, rfl⟩
    cases hp
    revert hverify
    decide +kernel
  · intro request
    cases request with
    | zero => rfl
    | succ n => rfl

end Wanfw.Orchestrator.StateStore
