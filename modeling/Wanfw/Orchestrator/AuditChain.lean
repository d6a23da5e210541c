import Wanfw.Js.Attributes
import Wanfw.Js.JsonText
import Wanfw.Orchestrator.AuditLog

/-!
# Lines and chains of the audit log

What the file of the audit log holds, as a list of entries, and what `verify` makes of it.

* `readAll_text_append`: the lines that `append` wrote are read back, whatever stands
  behind them; a line that was cut off anywhere before its end is not (`readAll_torn`).
* `verifyFrom_valid_iff`: `verify` accepts exactly the lists in which every entry names
  the hash of the one before it, has its own hash, and a valid signature if it has any.
-/

namespace Wanfw.Orchestrator

open Wanfw.Js Wanfw.Schemas

/-! ### Entries as values -/

namespace AuditEntry

/-- The keys of an entry. -/
def fieldKeys : List JsString := [js "seq", js "ts", js "type", js "details", js "prevHash", js "hash", js "checkpointSig"]

theorem keys_sublist (e : AuditEntry) : (Obj.keys e.members).Sublist fieldKeys := by
  unfold members
  cases e.checkpointSig with
  | none =>
    change [js "seq", js "ts", js "type", js "details", js "prevHash", js "hash"].Sublist _
    decide
  | some sig =>
    change fieldKeys.Sublist fieldKeys
    exact List.Sublist.refl _

theorem toJson_proper (e : AuditEntry) : e.toJson.Proper := by
  refine .plain (e.keys_sublist.nodup (by decide)) (fun k hk => ?_) fun m hm => ?_
  · have hplain : ∀ k ∈ fieldKeys, arrayIndex k = none := by decide
    exact hplain k (e.keys_sublist.mem hk)
  · unfold members base at hm
    simp only [List.cons_append, List.nil_append, List.mem_cons, Option.mem_toList, Option.map_eq_some_iff] at hm
    rcases hm with rfl | rfl | rfl | rfl | rfl | rfl | ⟨sig, -, rfl⟩
    · exact .num _
    · exact .str _
    · exact .str _
    · exact e.input.details_proper
    · exact .str _
    · exact .str _
    · exact .str _

theorem prop_seq (e : AuditEntry) : e.toJson.prop (js "seq") = some (.num (Decimal.ofNat e.seq)) := rfl

theorem prop_prevHash (e : AuditEntry) : e.toJson.prop (js "prevHash") = some (.str e.prevHash) := rfl

theorem prop_type (e : AuditEntry) : e.toJson.prop (js "type") = some (.str e.input.type) := rfl

theorem prop_hash (e : AuditEntry) : e.toJson.prop (js "hash") = some (.str e.hash) := rfl

theorem prop_checkpointSig (e : AuditEntry) : e.toJson.prop (js "checkpointSig") = e.checkpointSig.map Json.str := by
  unfold toJson members
  cases e.checkpointSig with
  | none => rfl
  | some sig => rfl

/-! ### Entries as lines -/

theorem parse_line (N : Numerals) (e : AuditEntry) : parse N e.line = some e.toJson := parse_stringify e.toJson_proper

theorem newline_not_mem_line (e : AuditEntry) : (10 : UInt16) ∉ e.line := by
  intro h
  have := noControl_stringify e.toJson 10 h
  revert this
  decide

theorem line_eq_cons (e : AuditEntry) : ∃ t, e.line = 123 :: t := ⟨_, rfl⟩

end AuditEntry

/-- The lines of some entries. -/
def logText (es : List AuditEntry) : JsString := es.flatMap fun e => e.line ++ [10]

theorem logText_concat (es : List AuditEntry) (e : AuditEntry) : logText (es ++ [e]) = logText es ++ (e.line ++ [10]) := by
  simp [logText]

/-- What an interrupted write of a line leaves: a part of it, perhaps the whole but for the line break; where the
cut is inside of a character, this is read as a replacement character. -/
def Torn (line text : JsString) : Prop := text <+: line ∨ ∃ p, p <+: line ∧ text = p ++ [0xFFFD]

section Reading

variable (N : Numerals)

/-- What a line contributes. -/
def readLine (line : JsString) : List Json := if trim line ≠ [] then (parse N line).toList else []

theorem readAll_eq (file : JsString) : readAll N file = (split file 10).flatMap (readLine N) := by
  unfold readAll
  induction split file 10 with
  | nil => rfl
  | cons l ls ih =>
    rw [List.flatMap_cons, ← ih, List.filter_cons, readLine]
    by_cases h : trim l = []
    · simp [h]
    · cases hp : parse N l with
      | none => simp [h, hp]
      | some v => simp [h, hp]

variable {N}

theorem trim_brace (t : JsString) : trim (123 :: t) ≠ [] := by
  unfold trim
  have hfirst : (123 :: t).dropWhile isSpace = 123 :: t := List.dropWhile_cons_of_neg (by decide)
  rw [hfirst, ne_eq, List.reverse_eq_nil_iff, List.dropWhile_eq_nil_iff]
  intro h
  exact absurd (h 123 (by simp)) (by decide)

theorem readLine_line (e : AuditEntry) : readLine N e.line = [e.toJson] := by
  obtain ⟨t, ht⟩ := e.line_eq_cons
  rw [readLine, if_pos (by rw [ht]; exact trim_brace t), e.parse_line]
  rfl

/-- **The lines of entries are read back**, whatever stands behind them. -/
theorem readAll_text_append (es : List AuditEntry) (tail : JsString) :
    readAll N (logText es ++ tail) = es.map AuditEntry.toJson ++ readAll N tail := by
  rw [readAll_eq, readAll_eq]
  induction es with
  | nil => rfl
  | cons e es ih =>
    have hsplit : logText (e :: es) ++ tail = e.line ++ 10 :: (logText es ++ tail) := by simp [logText]
    rw [hsplit, split_append_cons e.newline_not_mem_line, List.flatMap_cons, readLine_line, ih]
    rfl

theorem readLine_of_not_mem {line : JsString} (h : (10 : UInt16) ∉ line) : readAll N line = readLine N line := by
  rw [readAll_eq, split_of_not_mem h, List.flatMap_singleton]

theorem readLine_of_parse_none {line : JsString} (h : parse N line = none) : readLine N line = [] := by
  rw [readLine, h]
  split <;> rfl

/-- **A torn line** is not read, unless only its line break is missing. -/
theorem readAll_torn {e : AuditEntry} {text : JsString} (h : Torn e.line text) :
    text ≠ e.line ∧ readAll N text = [] ∨ text = e.line ∧ readAll N text = [e.toJson] := by
  rcases h with ⟨q, hq⟩ | ⟨p, hp, rfl⟩
  · have hmem : (10 : UInt16) ∉ text := fun hmem => e.newline_not_mem_line (hq ▸ List.mem_append_left q hmem)
    rw [readLine_of_not_mem hmem]
    by_cases hnil : q = []
    · have htext : text = e.line := by rw [← hq, hnil, List.append_nil]
      exact .inr ⟨htext, by rw [htext, readLine_line]⟩
    · refine .inl ⟨fun htext => hnil (List.append_right_eq_self.mp (hq.trans htext.symm)), ?_⟩
      exact readLine_of_parse_none (parse_truncated e.toJson_proper hq.symm hnil)
  · have hmem : (10 : UInt16) ∉ p ++ [0xFFFD] := by
      rw [List.mem_append, not_or]
      exact ⟨fun h => e.newline_not_mem_line (hp.subset h), by decide⟩
    have hnone : parse N (p ++ [0xFFFD]) = none := parse_eq_none_of_last (by decide) (by decide) p
    rw [readLine_of_not_mem hmem]
    refine .inl ⟨fun heq => ?_, readLine_of_parse_none hnone⟩
    rw [heq, e.parse_line] at hnone
    cases hnone

theorem readAll_nil : readAll N [] = [] := rfl

theorem readAll_text (es : List AuditEntry) : readAll N (logText es) = es.map AuditEntry.toJson := by
  have h := readAll_text_append (N := N) es []
  rwa [List.append_nil, readAll_nil, List.append_nil] at h

end Reading

/-! ### Verifying -/

section Verifying

variable {κ : Type} (sha256 : List UInt8 → JsString) (S : SignatureScheme κ) (key : κ)

/-- The fields of an entry that are hashed again. -/
def entryBase : Json → Obj Json
  | .obj o => o.filter fun m => m.1 ≠ js "hash" ∧ m.1 ≠ js "checkpointSig"
  | _ => []

/-- An entry with its own hash, and with a valid signature if it has any. -/
structure Intact (entry : Json) : Prop where
  hash : entry.prop (js "hash") = some (.str (hashOf sha256 (entryBase entry)))
  sig : ∀ sig, entry.prop (js "checkpointSig") = some sig → S.verify key (hashOf sha256 (entryBase entry)) sig = true

/-- Intact entries, each with the hash of the one before it. -/
def Linked : JsString → List Json → Prop
  | _, [] => True
  | prevHash, entry :: entries =>
    entry.prop (js "prevHash") = some (.str prevHash) ∧ Intact sha256 S key entry ∧
      Linked (hashOf sha256 (entryBase entry)) entries

variable {sha256 S key}

theorem strictEq_str {v : Value} {s : JsString} : Value.strictEq v (.str s) = true ↔ v = some (.str s) := by
  unfold Value.strictEq
  cases v with
  | none => simp
  | some j => cases j <;> simp [Json.strictEq]

theorem any_not_iff {v : Value} {f : Json → Bool} : (v.any fun x => !f x) = true ↔ ¬ ∀ x, v = some x → f x = true := by
  cases v with
  | none => simp
  | some x => simp

/-- **What `verify` accepts.** -/
theorem verifyFrom_valid_iff (count : ℕ) (prevHash : JsString) (entries : List Json) :
    (∃ r, verifyFrom sha256 S key count prevHash entries = .ok r ∧ r.valid = true) ↔ Linked sha256 S key prevHash entries := by
  induction entries generalizing prevHash with
  | nil => exact iff_of_true ⟨_, rfl, rfl⟩ trivial
  | cons entry entries ih =>
    by_cases hnull : entry = .null
    · subst hnull
      refine iff_of_false ?_ fun h => absurd h.1 (by simp [Json.prop])
      rintro ⟨r, hr, -⟩
      cases hr
    · have hverify : verifyFrom sha256 S key count prevHash (entry :: entries) =
          if !(Value.strictEq (entry.prop (js "prevHash")) (.str prevHash)) then
            .ok ⟨false, count, entry.prop (js "seq"), some (js "prevHash mismatch")⟩
          else if !(Value.strictEq (entry.prop (js "hash")) (.str (hashOf sha256 (entryBase entry)))) then
            .ok ⟨false, count, entry.prop (js "seq"), some (js "hash mismatch")⟩
          else if (entry.prop (js "checkpointSig")).any fun sig => !(S.verify key (hashOf sha256 (entryBase entry)) sig) then
            .ok ⟨false, count, entry.prop (js "seq"), some (js "checkpoint signature invalid")⟩
          else verifyFrom sha256 S key count (hashOf sha256 (entryBase entry)) entries := by
        cases entry with
        | null => exact absurd rfl hnull
        | _ => rfl
      have hbad : ∀ seq reason, ¬ ∃ r : AuditVerifyResult,
          (Except.ok ⟨false, count, seq, reason⟩ : Except JsError AuditVerifyResult) = .ok r ∧ r.valid = true := by
        rintro seq reason ⟨r, hr, hvalid⟩
        cases hr
        cases hvalid
      rw [hverify, Linked]
      by_cases hprev : entry.prop (js "prevHash") = some (.str prevHash)
      · rw [if_neg (by simp [strictEq_str.mpr hprev])]
        by_cases hhash : entry.prop (js "hash") = some (.str (hashOf sha256 (entryBase entry)))
        · rw [if_neg (by simp [strictEq_str.mpr hhash])]
          by_cases hsig : ∀ sig, entry.prop (js "checkpointSig") = some sig →
              S.verify key (hashOf sha256 (entryBase entry)) sig = true
          · rw [if_neg, ih]
            · exact ⟨fun h => ⟨hprev, ⟨hhash, hsig⟩, h⟩, fun h => h.2.2⟩
            · exact fun hany => any_not_iff.mp hany hsig
          · rw [if_pos (any_not_iff.mpr hsig)]
            exact iff_of_false (hbad _ _) fun h => hsig h.2.1.sig
        · rw [if_pos (by simpa using fun h => hhash (strictEq_str.mp h))]
          exact iff_of_false (hbad _ _) fun h => hhash h.2.1.hash
      · rw [if_pos (by simpa using fun h => hprev (strictEq_str.mp h))]
        exact iff_of_false (hbad _ _) fun h => hprev h.1

end Verifying

/-! ### Chains of entries -/

section Chains

variable {κ : Type} (sha256 : List UInt8 → JsString) (S : SignatureScheme κ)

/-- The fields of an entry that are hashed. -/
def AuditEntry.fields (e : AuditEntry) : Obj Json := AuditEntry.base e.seq e.ts e.input e.prevHash

/-- Entries with their own hashes, each with the hash of the one before it. -/
def Chained : JsString → List AuditEntry → Prop
  | _, [] => True
  | prevHash, e :: es => e.prevHash = prevHash ∧ e.hash = hashOf sha256 e.fields ∧ Chained e.hash es

/-- The signature of an entry, if it has any, is valid under the key. -/
def AuditEntry.SignedBy (key : κ) (e : AuditEntry) : Prop :=
  ∀ sig, e.checkpointSig = some sig → S.verify key e.hash (.str sig) = true

/-- The cursor behind some entries. -/
def Cursor.after (es : List AuditEntry) : Cursor :=
  match es.getLast? with
  | none => Cursor.start
  | some e => ⟨e.seq, e.hash⟩

/-- `verify()` returns valid. -/
def VerifiesAs (N : Numerals) (key : κ) (file : JsString) : Prop :=
  ∃ r, verify N sha256 S key file = .ok r ∧ r.valid = true

variable {sha256 S} {N : Numerals} {key : κ} {es : List AuditEntry} {e : AuditEntry} {prevHash : JsString}

theorem entryBase_toJson (e : AuditEntry) : entryBase e.toJson = e.fields := by
  unfold AuditEntry.toJson AuditEntry.members AuditEntry.fields
  cases e.checkpointSig with
  | none => rfl
  | some sig => rfl

theorem intact_toJson_iff :
    Intact sha256 S key e.toJson ↔ e.hash = hashOf sha256 e.fields ∧ e.SignedBy S key := by
  have hhash : e.toJson.prop (js "hash") = some (.str (hashOf sha256 (entryBase e.toJson))) ↔
      e.hash = hashOf sha256 e.fields := by
    rw [e.prop_hash, entryBase_toJson]
    simp
  constructor
  · rintro ⟨h, hsig⟩
    have heq := hhash.mp h
    refine ⟨heq, fun sig hs => ?_⟩
    rw [heq, ← entryBase_toJson]
    exact hsig (.str sig) (by rw [e.prop_checkpointSig, hs]; rfl)
  · rintro ⟨heq, hsig⟩
    refine ⟨hhash.mpr heq, fun sig hs => ?_⟩
    rw [e.prop_checkpointSig] at hs
    obtain ⟨sig', hs', rfl⟩ := Option.map_eq_some_iff.mp hs
    rw [entryBase_toJson, ← heq]
    exact hsig sig' hs'

/-- **`verify` on entries of `append`**: the chain, and the signatures under the key. -/
theorem linked_toJson_iff (prevHash : JsString) (es : List AuditEntry) :
    Linked sha256 S key prevHash (es.map AuditEntry.toJson) ↔
      Chained sha256 prevHash es ∧ ∀ e ∈ es, e.SignedBy S key := by
  induction es generalizing prevHash with
  | nil => simp [Linked, Chained]
  | cons e es ih =>
    rw [List.map_cons, Linked, Chained, e.prop_prevHash, intact_toJson_iff, entryBase_toJson, List.forall_mem_cons]
    constructor
    · rintro ⟨hprev, ⟨hhash, hsig⟩, hrest⟩
      rw [← hhash] at hrest
      obtain ⟨hchain, hsigs⟩ := (ih _).mp hrest
      exact ⟨⟨by simpa using hprev, hhash, hchain⟩, hsig, hsigs⟩
    · rintro ⟨⟨hprev, hhash, hchain⟩, hsig, hsigs⟩
      refine ⟨by rw [hprev], ⟨hhash, hsig⟩, ?_⟩
      rw [← hhash]
      exact (ih _).mpr ⟨hchain, hsigs⟩

theorem verifiesAs_iff {file : JsString} (h : readAll N file = es.map AuditEntry.toJson) :
    VerifiesAs sha256 S N key file ↔ Chained sha256 genesisHash es ∧ ∀ e ∈ es, e.SignedBy S key := by
  rw [VerifiesAs, verify, verifyFrom_valid_iff, h, linked_toJson_iff]

theorem Cursor.after_concat (es : List AuditEntry) (e : AuditEntry) : Cursor.after (es ++ [e]) = ⟨e.seq, e.hash⟩ := by
  simp [Cursor.after]

/-- The constructor takes up where the entries end. -/
theorem resume_eq {file : JsString} (h : readAll N file = es.map AuditEntry.toJson) :
    resume N file = some (Cursor.after es) := by
  unfold resume
  rw [h, List.getLast?_map]
  rcases List.eq_nil_or_concat' es with rfl | ⟨es, e, rfl⟩
  · rfl
  · rw [List.getLast?_concat, Cursor.after_concat]
    simp only [Option.map_some, e.prop_seq, e.prop_hash, natOf_ofNat]

theorem chained_concat (prevHash : JsString) (es : List AuditEntry) (e : AuditEntry) :
    Chained sha256 prevHash (es ++ [e]) ↔ Chained sha256 prevHash es ∧
      e.prevHash = (es.getLast?.map AuditEntry.hash).getD prevHash ∧ e.hash = hashOf sha256 e.fields := by
  induction es generalizing prevHash with
  | nil => simp [Chained]
  | cons x es ih =>
    rw [List.cons_append, Chained, Chained, ih]
    rcases List.eq_nil_or_concat' es with rfl | ⟨es, y, rfl⟩
    · simp [and_assoc]
    · rw [List.getLast?_concat, ← List.cons_append, List.getLast?_concat]
      simp [and_assoc]

theorem lastHash_after (es : List AuditEntry) :
    (Cursor.after es).lastHash = (es.getLast?.map AuditEntry.hash).getD genesisHash := by
  unfold Cursor.after
  cases es.getLast? with
  | none => rfl
  | some e => rfl

section Entry

variable (c : Cursor) (key : κ) (ts : JsString) (input : AuditEntryInput)

@[simp] theorem Cursor.input_entry : (c.entry sha256 S key ts input).input = input := rfl

theorem Cursor.checkpointSig_entry : (c.entry sha256 S key ts input).checkpointSig =
    if AuditEntry.isCheckpoint (c.seq + 1) input.type then some (S.sign key (c.entry sha256 S key ts input).hash) else none :=
  rfl

end Entry

/-- **An entry of `append` continues the chain** that ends with the last hash, and is signed by the key. -/
theorem chained_append (key : κ) {c : Cursor} (h : Chained sha256 genesisHash es) (hc : c.lastHash = (Cursor.after es).lastHash)
    (ts : JsString) (input : AuditEntryInput) :
    Chained sha256 genesisHash (es ++ [c.entry sha256 S key ts input]) ∧
      (c.entry sha256 S key ts input).SignedBy S key := by
  refine ⟨(chained_concat _ _ _).mpr ⟨h, ?_, rfl⟩, fun sig hsig => ?_⟩
  · rw [← lastHash_after]
    exact hc
  · rw [Cursor.checkpointSig_entry, Option.ite_none_right_eq_some, Option.some.injEq] at hsig
    rw [← hsig.2]
    exact S.verify_sign key _

end Chains

end Wanfw.Orchestrator
