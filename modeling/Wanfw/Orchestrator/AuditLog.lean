import Wanfw.Js.Regex
import Wanfw.Js.Values
import Wanfw.Orchestrator.SigningKey
import Wanfw.Schemas.Projection

/-!
# The audit log

`audit-log.ts`: a file of JSON lines. Every entry carries the hash of its fields, and
among these the hash of the entry before it; an entry of a type that matters, and every
hundredth, carries a signature of its hash as well. The process keeps the number and the
hash of the last entry in memory (`Cursor`) and takes them from the file when it starts.

`readAll` drops the lines it cannot parse. `verify` follows the chain over the lines that
it can, and checks the signatures that it finds.
-/

namespace Wanfw.Orchestrator

open Wanfw.Js Wanfw.Schemas

/-- `AuditEntryInput`. -/
structure AuditEntryInput where
  type : JsString
  details : Obj Json
  details_proper : (Json.obj details).Proper

/-- An entry whose details are texts. -/
def AuditEntryInput.texts (type : JsString) (fields : List (JsString × JsString)) (hnd : (fields.map (·.1)).Nodup)
    (hplain : ∀ k ∈ fields.map (·.1), arrayIndex k = none) : AuditEntryInput where
  type := type
  details := fields.map fun f => (f.1, .str f.2)
  details_proper := by
    have hkeys : Obj.keys (fields.map fun f => (f.1, Json.str f.2)) = fields.map (·.1) := by
      rw [Obj.keys, List.map_map]
      rfl
    refine .plain (hkeys ▸ hnd) (hkeys ▸ hplain) fun e he => ?_
    obtain ⟨f, -, rfl⟩ := List.mem_map.mp he
    exact .str _

theorem AuditEntryInput.no_fields_nodup : (([] : List (JsString × JsString)).map (·.1)).Nodup := List.nodup_nil

theorem AuditEntryInput.no_fields_plain : ∀ k ∈ ([] : List (JsString × JsString)).map (·.1), arrayIndex k = none := by simp

/-- `AuditEntry`. -/
structure AuditEntry where
  seq : ℕ
  ts : JsString
  input : AuditEntryInput
  prevHash : JsString
  hash : JsString
  checkpointSig : Option JsString

/-- `AuditVerifyResult`. -/
structure AuditVerifyResult where
  valid : Bool
  entryCount : ℕ
  failedAtSeq : Option Json
  reason : Option JsString

/-- `GENESIS_HASH`. -/
def genesisHash : JsString := List.replicate 64 48

/-- `CHECKPOINT_INTERVAL`. -/
def checkpointInterval : ℕ := 100

/-- `SECURITY_RELEVANT_TYPES`. -/
def securityRelevantTypes : List JsString :=
  [js "plugin.trust", js "plugin.untrust", js "grant.create", js "grant.revoke", js "plan.approve", js "plan.revoke",
    js "key.rotate", js "key.import", js "powerful.execute", js "secret.set", js "secret.unset",
    js "plugin.invoke.refused", js "framework.uninstall"]

/-- What the process remembers: `this.seq` and `this.lastHash`. -/
structure Cursor where
  seq : ℕ
  lastHash : JsString
  deriving DecidableEq

/-- The cursor of an empty log. -/
def Cursor.start : Cursor := ⟨0, genesisHash⟩

namespace AuditEntry

/-- The fields that are hashed. -/
def base (seq : ℕ) (ts : JsString) (input : AuditEntryInput) (prevHash : JsString) : Obj Json :=
  [(js "seq", .num (Decimal.ofNat seq)), (js "ts", .str ts), (js "type", .str input.type),
    (js "details", .obj input.details), (js "prevHash", .str prevHash)]

/-- The members of an entry. -/
def members (e : AuditEntry) : Obj Json :=
  base e.seq e.ts e.input e.prevHash ++ (js "hash", .str e.hash) ::
    (e.checkpointSig.map fun sig => (js "checkpointSig", Json.str sig)).toList

/-- The entry as a JSON value. -/
def toJson (e : AuditEntry) : Json := .obj e.members

/-- The line of an entry, without its end. -/
def line (e : AuditEntry) : JsString := stringify e.toJson

/-- Whether an entry is signed. -/
def isCheckpoint (seq : ℕ) (type : JsString) : Bool := seq % checkpointInterval == 0 || type ∈ securityRelevantTypes

end AuditEntry

section Log

variable {κ : Type} (N : Numerals) (sha256 : List UInt8 → JsString) (S : SignatureScheme κ)

/-- `hashableFields`, hashed. -/
def hashOf (base : Obj Json) : JsString := sha256 (utf8 (canonicalJSONStringify (.obj base)))

/-- The entry of an `append` with a key at a time. -/
def Cursor.entry (c : Cursor) (key : κ) (ts : JsString) (input : AuditEntryInput) : AuditEntry :=
  let hash := hashOf sha256 (AuditEntry.base (c.seq + 1) ts input c.lastHash)
  { seq := c.seq + 1, ts := ts, input := input, prevHash := c.lastHash, hash := hash
    checkpointSig := if AuditEntry.isCheckpoint (c.seq + 1) input.type then some (S.sign key hash) else none }

/-- `readAll`, for the text of the file. -/
def readAll (file : JsString) : List Json := ((split file 10).filter fun line => trim line ≠ []).filterMap (parse N)

/-- The cursor that the constructor takes from the file, if the last entry has a number and a hash. -/
def resume (file : JsString) : Option Cursor :=
  match (readAll N file).getLast? with
  | none => some Cursor.start
  | some last =>
    match last.prop (js "seq"), last.prop (js "hash") with
    | some (.num d), some (.str hash) => (natOf d).map fun seq => ⟨seq, hash⟩
    | _, _ => none

/-- `verify`, from an entry on. -/
def verifyFrom (key : κ) (count : ℕ) : JsString → List Json → Except JsError AuditVerifyResult
  | _, [] => .ok ⟨true, count, none, none⟩
  | _, .null :: _ => .error (.typeError (js "Cannot read properties of null (reading 'prevHash')"))
  | prevHash, entry :: entries =>
    if !(Value.strictEq (entry.prop (js "prevHash")) (.str prevHash)) then
      .ok ⟨false, count, entry.prop (js "seq"), some (js "prevHash mismatch")⟩
    else
      let base := match entry with
        | .obj o => o.filter fun m => m.1 ≠ js "hash" ∧ m.1 ≠ js "checkpointSig"
        | _ => []
      let recomputedHash := hashOf sha256 base
      if !(Value.strictEq (entry.prop (js "hash")) (.str recomputedHash)) then
        .ok ⟨false, count, entry.prop (js "seq"), some (js "hash mismatch")⟩
      else if (entry.prop (js "checkpointSig")).any fun sig => !(S.verify key recomputedHash sig) then
        .ok ⟨false, count, entry.prop (js "seq"), some (js "checkpoint signature invalid")⟩
      else verifyFrom key count recomputedHash entries

/-- `verify()`, under the current key. -/
def verify (key : κ) (file : JsString) : Except JsError AuditVerifyResult :=
  verifyFrom sha256 S key (readAll N file).length genesisHash (readAll N file)

end Log

end Wanfw.Orchestrator
