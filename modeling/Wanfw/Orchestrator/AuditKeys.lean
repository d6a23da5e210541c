import Wanfw.Orchestrator.AuditChain
import Wanfw.Schemas.BundleHash

/-!
# Key operations and the audit log

`POST /key/rotate` and `POST /key/import` put another key in place and append an entry
about it, signed with the new key. The signatures of earlier checkpoints stay in the file,
and `verify` checks all of them under the one current key: once the log has a checkpoint, a
change of the key makes it invalid for ever (`key_ops_verifiable_iff`).
-/

namespace Wanfw.Orchestrator

open Wanfw.Js Wanfw.Schemas

/-- A log file, what the process remembers, and the current key. -/
structure KeyedLog (κ : Type) where
  file : JsString
  cursor : Cursor
  key : κ

/-- The requests, with the time of their entry. -/
inductive KeyOp (κ : Type) where
  | append (ts : JsString) (input : AuditEntryInput)
  /-- `POST /key/rotate`, with the key that is generated. -/
  | rotate (key : κ) (ts : JsString)
  /-- `POST /key/import`. -/
  | importFrom (key : κ) (ts : JsString)

/-- The entry about a key operation. -/
def keyEntry (type : JsString) : AuditEntryInput :=
  .texts type [] AuditEntryInput.no_fields_nodup AuditEntryInput.no_fields_plain

section Keys

variable {κ : Type} (N : Numerals) (sha256 : List UInt8 → JsString) (S : SignatureScheme κ)

/-- `append`, under the current key. -/
def KeyedLog.append (s : KeyedLog κ) (ts : JsString) (input : AuditEntryInput) : KeyedLog κ :=
  let entry := s.cursor.entry sha256 S s.key ts input
  ⟨s.file ++ (entry.line ++ [10]), ⟨entry.seq, entry.hash⟩, s.key⟩

/-- The log after a request. -/
def KeyedLog.step (s : KeyedLog κ) : KeyOp κ → KeyedLog κ
  | .append ts input => s.append sha256 S ts input
  | .rotate key ts => { s with key := key }.append sha256 S ts (keyEntry (js "key.rotate"))
  | .importFrom key ts => { s with key := key }.append sha256 S ts (keyEntry (js "key.import"))

/-- A sequence of requests on a new log. -/
def runKeyOps (key : κ) (ops : List (KeyOp κ)) : KeyedLog κ := ops.foldl (KeyedLog.step sha256 S) ⟨[], Cursor.start, key⟩

/-- `POST /audit/verify` returns valid. -/
def KeyedLog.Verifies (s : KeyedLog κ) : Prop := VerifiesAs sha256 S N s.key s.file

/-- The key that a request puts in place. -/
def KeyOp.newKey (s : KeyedLog κ) : KeyOp κ → κ
  | .append _ _ => s.key
  | .rotate key _ => key
  | .importFrom key _ => key

/-- A request leaves the key as it is, or finds a log without a checkpoint. -/
def KeyOp.KeepsKey (s : KeyedLog κ) (op : KeyOp κ) : Prop :=
  op.newKey s = s.key ∨ ∀ entry ∈ readAll N s.file, entry.prop (js "checkpointSig") = none

/-- The file is the lines of chained entries, each signature made with some key. -/
structure KeyedLog.Holds (s : KeyedLog κ) (es : List AuditEntry) : Prop where
  file : s.file = logText es
  chained : Chained sha256 genesisHash es
  cursor : s.cursor.lastHash = (Cursor.after es).lastHash
  made : ∀ e ∈ es, ∀ sig, e.checkpointSig = some sig → ∃ k, sig = S.sign k e.hash

variable {N sha256 S} {s : KeyedLog κ} {es : List AuditEntry}

theorem KeyedLog.Holds.verifies_iff (h : s.Holds sha256 S es) : s.Verifies N sha256 S ↔ ∀ e ∈ es, e.SignedBy S s.key := by
  rw [KeyedLog.Verifies, verifiesAs_iff (by rw [h.file, readAll_text])]
  exact and_iff_right h.chained

theorem KeyedLog.Holds.keepsKey_iff (h : s.Holds sha256 S es) (op : KeyOp κ) :
    op.KeepsKey N s ↔ op.newKey s = s.key ∨ ∀ e ∈ es, e.checkpointSig = none := by
  unfold KeyOp.KeepsKey
  rw [h.file, readAll_text]
  refine or_congr Iff.rfl ⟨fun hall e he => ?_, fun hall entry hentry => ?_⟩
  · have := hall e.toJson (List.mem_map_of_mem he)
    rwa [e.prop_checkpointSig, Option.map_eq_none_iff] at this
  · obtain ⟨e, he, rfl⟩ := List.mem_map.mp hentry
    rw [e.prop_checkpointSig, hall e he]
    rfl

/-- A request appends one entry, signed with the key that it leaves. -/
theorem KeyedLog.step_eq (s : KeyedLog κ) (op : KeyOp κ) :
    ∃ ts input, s.step sha256 S op = (⟨s.file, s.cursor, op.newKey s⟩ : KeyedLog κ).append sha256 S ts input := by
  cases op with
  | append ts input => exact ⟨ts, input, rfl⟩
  | rotate key ts => exact ⟨ts, _, rfl⟩
  | importFrom key ts => exact ⟨ts, _, rfl⟩

theorem KeyedLog.Holds.append (h : s.Holds sha256 S es) (ts : JsString) (input : AuditEntryInput) :
    (s.append sha256 S ts input).Holds sha256 S (es ++ [s.cursor.entry sha256 S s.key ts input]) := by
  refine ⟨?_, (chained_append (S := S) s.key h.chained h.cursor ts input).1, ?_, ?_⟩
  · rw [logText_concat, ← h.file]
    rfl
  · rw [Cursor.after_concat]
    rfl
  · intro e he sig hsig
    rcases List.mem_append.mp he with he | he
    · exact h.made e he sig hsig
    · rw [List.mem_singleton] at he
      subst he
      rw [Cursor.checkpointSig_entry, Option.ite_none_right_eq_some, Option.some.injEq] at hsig
      exact ⟨s.key, hsig.2.symm⟩

/-- **One request.** -/
theorem KeyedLog.Holds.step (h : s.Holds sha256 S es) (op : KeyOp κ) :
    ∃ e, (s.step sha256 S op).Holds sha256 S (es ++ [e]) ∧ (s.step sha256 S op).key = op.newKey s ∧
      e.SignedBy S (op.newKey s) := by
  obtain ⟨ts, input, hstep⟩ := s.step_eq op
  have hkey : KeyedLog.Holds sha256 S ⟨s.file, s.cursor, op.newKey s⟩ es := ⟨h.file, h.chained, h.cursor, h.made⟩
  rw [hstep]
  exact ⟨_, hkey.append ts input, rfl, (chained_append (S := S) (op.newKey s) h.chained h.cursor ts input).2⟩

variable (sha256 S) in
theorem holds_runKeyOps (key : κ) (ops : List (KeyOp κ)) : ∃ es, (runKeyOps sha256 S key ops).Holds sha256 S es := by
  induction ops using List.reverseRecOn with
  | nil => exact ⟨[], rfl, trivial, rfl, by simp⟩
  | append_singleton ops op ih =>
    obtain ⟨es, h⟩ := ih
    obtain ⟨e, he, -⟩ := h.step op
    rw [runKeyOps, List.foldl_concat]
    exact ⟨_, he⟩

/-- A log that verifies does so after a request that keeps the key, or finds no checkpoint. -/
theorem KeyedLog.Holds.verifies_step (h : s.Holds sha256 S es) (hs : s.Verifies N sha256 S) {op : KeyOp κ}
    (hop : op.KeepsKey N s) : (s.step sha256 S op).Verifies N sha256 S := by
  obtain ⟨e, he, hkey, hsigned⟩ := h.step op
  rw [he.verifies_iff, hkey]
  intro x hx
  rcases List.mem_append.mp hx with hx | hx
  · rcases (h.keepsKey_iff op).mp hop with hsame | hnone
    · rw [hsame]
      exact h.verifies_iff.mp hs x hx
    · intro sig hsig
      rw [hnone x hx] at hsig
      cases hsig
  · rw [List.mem_singleton.mp hx]
    exact hsigned

theorem KeyedLog.Holds.verifies_append (h : s.Holds sha256 S es) (hs : s.Verifies N sha256 S) (ts : JsString)
    (input : AuditEntryInput) : (s.append sha256 S ts input).Verifies N sha256 S :=
  h.verifies_step hs (show (KeyOp.append ts input).KeepsKey N s from .inl rfl)

/-- Where a signature verifies under its own key only, a log that verifies before and after a request has kept
the key or has no checkpoint. -/
theorem KeyedLog.Holds.keepsKey (h : s.Holds sha256 S es)
    (hown : ∀ k k' m, k ≠ k' → S.verify k' m (.str (S.sign k m)) = false) (hs : s.Verifies N sha256 S) {op : KeyOp κ}
    (hop : (s.step sha256 S op).Verifies N sha256 S) : op.KeepsKey N s := by
  rw [h.keepsKey_iff]
  refine or_iff_not_imp_left.mpr fun hne e he => ?_
  cases hsig : e.checkpointSig with
  | none => rfl
  | some sig =>
    exfalso
    obtain ⟨x, hx, hkey, -⟩ := h.step op
    obtain ⟨k, rfl⟩ := h.made e he sig hsig
    have hold := h.verifies_iff.mp hs e he _ hsig
    have hnew := hx.verifies_iff.mp hop e (List.mem_append_left _ he) _ hsig
    rw [hkey] at hnew
    by_cases hk : k = s.key
    · rw [hown k (op.newKey s) _ fun heq => hne (heq.symm.trans hk)] at hnew
      cases hnew
    · rw [hown k s.key _ hk] at hold
      cases hold

variable (N sha256 S) in
/-- **Key operations keep the audit history verifiable exactly when they keep the key or come before the first
checkpoint.** In every run in which each request leaves the key as it is or finds a log without a checkpoint,
`verify` returns valid after every request; and where a signature verifies under its own key only, it does in no
other run. -/
theorem key_ops_verifiable_iff (key : κ) (ops : List (KeyOp κ)) :
    ((∀ pre op, pre ++ [op] <+: ops → op.KeepsKey N (runKeyOps sha256 S key pre)) →
      ∀ pre, pre <+: ops → (runKeyOps sha256 S key pre).Verifies N sha256 S) ∧
    ((∀ k k' m, k ≠ k' → S.verify k' m (.str (S.sign k m)) = false) →
      (∀ pre, pre <+: ops → (runKeyOps sha256 S key pre).Verifies N sha256 S) →
      ∀ pre op, pre ++ [op] <+: ops → op.KeepsKey N (runKeyOps sha256 S key pre)) := by
  have hstep : ∀ pre op, runKeyOps sha256 S key (pre ++ [op]) = (runKeyOps sha256 S key pre).step sha256 S op :=
    fun pre op => List.foldl_concat _ _ _ _
  constructor
  · intro hkeeps pre hinit
    induction pre using List.reverseRecOn with
    | nil => exact ⟨_, rfl, rfl⟩
    | append_singleton pre op ih =>
      obtain ⟨es, hholds⟩ := holds_runKeyOps sha256 S key pre
      rw [hstep]
      exact hholds.verifies_step (ih ((List.prefix_append pre [op]).trans hinit)) (hkeeps pre op hinit)
  · intro hown hverifies pre op hinit
    obtain ⟨es, hholds⟩ := holds_runKeyOps sha256 S key pre
    refine hholds.keepsKey hown (hverifies pre ((List.prefix_append pre [op]).trans hinit)) ?_
    rw [← hstep]
    exact hverifies _ hinit

end Keys

theorem sampleScheme_own (k k' m : JsString) (h : k ≠ k') : sampleScheme.verify k' m (.str (sampleScheme.sign k m)) = false := by
  simpa [sampleScheme] using h

/-- An untrust entry, and a rotation of the key after it. -/
def rotateOps : List (KeyOp JsString) :=
  [.append (js "2025-01-01T00:00:00.000Z") (keyEntry (js "plugin.untrust")), .rotate (js "second") (js "2025-01-01T00:00:01.000Z")]

/-- The checkpoint of the first entry was signed with the first key. -/
theorem rotation_invalidates_checkpoint :
    ¬ (runKeyOps sampleSha sampleScheme (js "first") rotateOps).Verifies Numerals.exact sampleSha sampleScheme := by
  intro hrotated
  rw [runKeyOps, rotateOps, List.foldl_cons, List.foldl_cons, List.foldl_nil] at hrotated
  have hempty : KeyedLog.Holds sampleSha sampleScheme ⟨[], Cursor.start, js "first"⟩ [] := ⟨rfl, trivial, rfl, by simp⟩
  have hfirst : KeyedLog.Verifies Numerals.exact sampleSha sampleScheme (KeyedLog.step sampleSha sampleScheme
      ⟨[], Cursor.start, js "first"⟩ (.append (js "2025-01-01T00:00:00.000Z") (keyEntry (js "plugin.untrust")))) :=
    hempty.verifies_step ⟨_, rfl, rfl⟩ (.inl rfl)
  have hheld : KeyedLog.Holds sampleSha sampleScheme (KeyedLog.step sampleSha sampleScheme ⟨[], Cursor.start, js "first"⟩
      (.append (js "2025-01-01T00:00:00.000Z") (keyEntry (js "plugin.untrust")))) _ := hempty.append _ _
  rcases (hheld.keepsKey_iff _).mp (hheld.keepsKey sampleScheme_own hfirst hrotated) with hkey | hnone
  · revert hkey
    decide
  · have hsig := hnone _ (List.mem_append_right _ (List.mem_singleton_self _))
    have hcheckpoint : AuditEntry.isCheckpoint (0 + 1) (js "plugin.untrust") = true := by decide
    rw [Cursor.checkpointSig_entry] at hsig
    exact absurd (hsig.symm.trans (if_pos hcheckpoint)) (by simp)

end Wanfw.Orchestrator
