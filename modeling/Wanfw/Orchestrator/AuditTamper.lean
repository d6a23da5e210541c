import Wanfw.Orchestrator.AuditKeys
import Wanfw.Store.HashChain

/-!
# Forged audit logs

Whoever can write the file but has no key can delete lines, or write a chain of their own:
the hashes are not keyed. Only a signature ties a line to the log that the process wrote,
and `verify` checks a signature where it finds one. It does not ask for any, and it does not
know how many entries there were.

`tamper_evident_iff`: a file that verifies agrees with the genuine log up to the last
checkpoint exactly when it still has the lines of the checkpoints, with their signatures.
Everything between these lines is then genuine as well, as far as it is hashed: members
named `__proto__` are not, and may be put in or taken out. A number too large for a double,
as `1e999`, is an infinity to the runtime and hashed like `null`; `parse` has no such
values, and no file with one is spoken of here.
-/

namespace Wanfw.Orchestrator

open Wanfw.Js Wanfw.Schemas Wanfw.Store

/-! ### Entries with the same hash -/

/-- The bytes of an entry that are hashed. -/
def hashedBytes (entry : Json) : List UInt8 := utf8 (canonicalJSONStringify (.obj (entryBase entry)))

theorem get_entryBase {entry v : Json} (h : entry.prop (js "prevHash") = some v) :
    Obj.get (entryBase entry) (js "prevHash") = some v := by
  cases entry with
  | obj o =>
    refine Eq.trans ?_ h
    unfold entryBase Json.prop Obj.get
    rw [List.find?_filter]
    congr 2
    funext m
    by_cases hm : m.1 = js "prevHash"
    · rw [hm]
      decide
    · simp [hm]
  | _ => cases h

/-- The hashed bytes determine the hash of the entry before. -/
theorem prevHash_eq_of_hashedBytes_eq {a b : Json} {s t : JsString} (ha : a.prop (js "prevHash") = some (.str s))
    (hb : b.prop (js "prevHash") = some (.str t)) (h : hashedBytes a = hashedBytes b) : s = t := by
  have hcanonical : canonicalize (.obj (entryBase a)) = canonicalize (.obj (entryBase b)) := utf8_stringify_inj h
  have hproto : js "prevHash" ≠ js "__proto__" := by decide
  have hprop := congrArg (fun v => Json.prop v (js "prevHash")) hcanonical
  rw [prop_canonicalize hproto, prop_canonicalize hproto, get_entryBase ha, get_entryBase hb] at hprop
  simpa [canonicalize] using hprop

/-! ### Chains of values -/

section Tamper

variable {κ : Type} (N : Numerals) (sha256 : List UInt8 → JsString) (S : SignatureScheme κ) (key : κ)

/-- What the next entry has to name. -/
def entryHash (entry : Json) : Value := some (.str (hashOf sha256 (entryBase entry)))

/-- The chain of `verify`. -/
def ChainFrom (prevHash : JsString) (entries : List Json) : Prop :=
  Links (fun entry => entry.prop (js "prevHash")) (entryHash sha256) (some (.str prevHash)) entries

/-- Two entries agree: in what is hashed, whatever the order of the keys, in the hash and in the signature. What is
hashed leaves members named `__proto__` out, at every depth. -/
structure Agrees (entry genuine : Json) : Prop where
  fields : canonicalize (.obj (entryBase entry)) = canonicalize (.obj (entryBase genuine))
  hash : entry.prop (js "hash") = genuine.prop (js "hash")
  sig : entry.prop (js "checkpointSig") = genuine.prop (js "checkpointSig")

/-- The entries up to the last one with a signature, and that one. -/
def checkpointed (entries : List Json) : List Json :=
  (entries.reverse.dropWhile fun entry => (entry.prop (js "checkpointSig")).isNone).reverse

/-- The entries agree with the genuine ones up to the last checkpoint. -/
def AgreesToCheckpoint (entries genuine : List Json) : Prop :=
  List.Forall₂ Agrees (entries.take (checkpointed genuine).length) (checkpointed genuine)

/-- SHA-256 is collision free: no two of the entries have one hash, and none has the one of the genesis. -/
structure CollisionFree (entries : List Json) : Prop where
  injOn : Set.InjOn sha256 {b | ∃ entry ∈ entries, b = hashedBytes entry}
  genesis : ∀ entry ∈ entries, hashOf sha256 (entryBase entry) ≠ genesisHash

/-- Signatures cannot be forged: where an entry has a valid one, the genuine log has one on this hash. -/
def Unforged (entries genuine : List Json) : Prop :=
  ∀ entry ∈ entries, ∀ sig, entry.prop (js "checkpointSig") = some sig →
    S.verify key (hashOf sha256 (entryBase entry)) sig = true →
    ∃ g ∈ genuine, hashOf sha256 (entryBase g) = hashOf sha256 (entryBase entry) ∧
      (g.prop (js "checkpointSig")).isSome = true

/-- Every checkpoint of the genuine log still has its line: the hash with the signature. -/
def KeepsCheckpoints (entries genuine : List Json) : Prop :=
  ∀ g ∈ genuine, ∀ sig, g.prop (js "checkpointSig") = some sig →
    ∃ entry ∈ entries, entry.prop (js "hash") = g.prop (js "hash") ∧ entry.prop (js "checkpointSig") = some sig

variable {N sha256 S key} {prevHash : JsString} {entries genuine : List Json}

theorem Linked.chainFrom (h : Linked sha256 S key prevHash entries) : ChainFrom sha256 prevHash entries := by
  induction entries generalizing prevHash with
  | nil => trivial
  | cons entry entries ih => exact ⟨h.1, ih h.2.2⟩

theorem Linked.intact (h : Linked sha256 S key prevHash entries) : ∀ entry ∈ entries, Intact sha256 S key entry := by
  induction entries generalizing prevHash with
  | nil => simp
  | cons entry entries ih => exact List.forall_mem_cons.mpr ⟨h.2.1, ih h.2.2⟩

theorem Chained.chainFrom {es : List AuditEntry} (h : Chained sha256 prevHash es) :
    ChainFrom sha256 prevHash (es.map AuditEntry.toJson) := by
  induction es generalizing prevHash with
  | nil => trivial
  | cons e es ih =>
    obtain ⟨hprev, hhash, hrest⟩ := h
    refine ⟨e.prop_prevHash.trans (by rw [hprev]), ?_⟩
    rw [entryHash, entryBase_toJson, ← hhash]
    exact ih hrest

theorem Chained.prop_hash {es : List AuditEntry} (h : Chained sha256 prevHash es) :
    ∀ g ∈ es.map AuditEntry.toJson, g.prop (js "hash") = entryHash sha256 g := by
  induction es generalizing prevHash with
  | nil => simp
  | cons e es ih =>
    obtain ⟨-, hhash, hrest⟩ := h
    refine List.forall_mem_cons.mpr ⟨?_, ih hrest⟩
    rw [e.prop_hash, entryHash, entryBase_toJson, hhash]

theorem ChainFrom.prevHash_str (h : ChainFrom sha256 prevHash entries) :
    ∀ entry ∈ entries, ∃ s, entry.prop (js "prevHash") = some (.str s) := by
  induction entries generalizing prevHash with
  | nil => simp
  | cons entry entries ih => exact List.forall_mem_cons.mpr ⟨⟨_, h.1⟩, ih h.2⟩

theorem CollisionFree.hashedBytes_eq (h : CollisionFree sha256 entries) {a b : Json} (ha : a ∈ entries) (hb : b ∈ entries)
    (heq : entryHash sha256 a = entryHash sha256 b) : hashedBytes a = hashedBytes b :=
  h.injOn ⟨a, ha, rfl⟩ ⟨b, hb, rfl⟩ (by simpa [entryHash, hashOf, hashedBytes] using heq)

theorem CollisionFree.prevHash_eq (h : CollisionFree sha256 (entries ++ genuine)) {prevHash' : JsString} {xs ys : List Json}
    (hxs : ChainFrom sha256 prevHash xs) (hys : ChainFrom sha256 prevHash' ys)
    (hx : xs ⊆ entries ++ genuine) (hy : ys ⊆ entries ++ genuine) :
    ∀ x ∈ xs, ∀ y ∈ ys, entryHash sha256 x = entryHash sha256 y → x.prop (js "prevHash") = y.prop (js "prevHash") := by
  intro x hxmem y hymem heq
  obtain ⟨s, hs⟩ := hxs.prevHash_str x hxmem
  obtain ⟨t, ht⟩ := hys.prevHash_str y hymem
  rw [hs, ht, prevHash_eq_of_hashedBytes_eq hs ht (h.hashedBytes_eq (hx hxmem) (hy hymem) heq)]

theorem CollisionFree.ne_genesis (h : CollisionFree sha256 entries) {xs : List Json} (hx : xs ⊆ entries) :
    ∀ x ∈ xs, entryHash sha256 x ≠ some (.str genesisHash) := by
  intro x hxmem heq
  exact h.genesis x (hx hxmem) (by simpa [entryHash] using heq)

/-- In a chain of such entries a hash occurs once. -/
theorem CollisionFree.eq_of_hash_eq (h : CollisionFree sha256 (entries ++ genuine)) {xs : List Json}
    (hxs : ChainFrom sha256 genesisHash xs) (hx : xs ⊆ entries ++ genuine) {a b : Json} (ha : a ∈ xs) (hb : b ∈ xs)
    (heq : entryHash sha256 a = entryHash sha256 b) : a = b :=
  Links.eq_of_hash_eq hxs (h.prevHash_eq hxs hxs hx hx) (h.ne_genesis hx) ha hb heq

/-! ### The entries up to the last checkpoint -/

theorem checkpointed_prefix (entries : List Json) : checkpointed entries <+: entries := by
  have h := List.dropWhile_suffix (l := entries.reverse) fun entry => (entry.prop (js "checkpointSig")).isNone
  simpa [checkpointed] using List.reverse_prefix.mpr h

theorem mem_checkpointed {entry sig : Json} (hmem : entry ∈ entries) (hsig : entry.prop (js "checkpointSig") = some sig) :
    entry ∈ checkpointed entries := by
  have hsplit := List.takeWhile_append_dropWhile (p := fun e : Json => (e.prop (js "checkpointSig")).isNone)
    (l := entries.reverse)
  rw [checkpointed, List.mem_reverse]
  rw [← List.mem_reverse, ← hsplit, List.mem_append] at hmem
  rcases hmem with hmem | hmem
  · have := List.mem_takeWhile_imp hmem
    simp [hsig] at this
  · exact hmem

theorem checkpointed_cases (entries : List Json) :
    checkpointed entries = [] ∨
      ∃ before last sig, checkpointed entries = before ++ [last] ∧ last.prop (js "checkpointSig") = some sig := by
  unfold checkpointed
  cases h : entries.reverse.dropWhile fun entry => (entry.prop (js "checkpointSig")).isNone with
  | nil => exact .inl rfl
  | cons last rest =>
    have hlast := List.head_dropWhile_not (fun entry : Json => (entry.prop (js "checkpointSig")).isNone)
      (l := entries.reverse) (by rw [h]; simp)
    simp only [h, List.head_cons, Option.isNone_eq_false_iff] at hlast
    obtain ⟨sig, hsig⟩ := Option.isSome_iff_exists.mp hlast
    exact .inr ⟨rest.reverse, last, sig, List.reverse_cons, hsig⟩

/-! ### Tampering -/

theorem KeepsCheckpoints.of_agrees (h : AgreesToCheckpoint entries genuine) : KeepsCheckpoints entries genuine := by
  intro g hg sig hsig
  obtain ⟨i, hi, rfl⟩ := List.getElem_of_mem (mem_checkpointed hg hsig)
  obtain ⟨hlen, hget⟩ := List.forall₂_iff_get.mp h
  have hagrees := hget i (by omega) hi
  refine ⟨_, List.mem_of_mem_take (List.get_mem _ _), hagrees.hash, ?_⟩
  rw [hagrees.sig]
  exact hsig

/-- A line with the hash of the last checkpoint brings all the lines before it. -/
theorem hashes_eq_of_last (hentries : ChainFrom sha256 genesisHash entries) (hgenuine : ChainFrom sha256 genesisHash genuine)
    (hfree : CollisionFree sha256 (entries ++ genuine)) {before : List Json} {last entry : Json}
    (hbefore : before ++ [last] <+: genuine) (hmem : entry ∈ entries)
    (heq : entryHash sha256 entry = entryHash sha256 last) :
    (entries.take (before ++ [last]).length).map (entryHash sha256) = (before ++ [last]).map (entryHash sha256) := by
  obtain ⟨start, rest, hsplit⟩ := List.append_of_mem hmem
  have hstart : start ++ [entry] <+: entries := ⟨rest, by rw [hsplit, List.append_assoc]; rfl⟩
  have hchain : ChainFrom sha256 genesisHash (start ++ [entry]) := by
    obtain ⟨t, ht⟩ := hstart
    exact Links.of_append (ht ▸ hentries)
  have hchain' : ChainFrom sha256 genesisHash (before ++ [last]) := by
    obtain ⟨t, ht⟩ := hbefore
    exact Links.of_append (ht ▸ hgenuine)
  have hsub : start ++ [entry] ⊆ entries ++ genuine := List.Subset.trans hstart.subset (List.subset_append_left _ _)
  have hsub' : before ++ [last] ⊆ entries ++ genuine := List.Subset.trans hbefore.subset (List.subset_append_right _ _)
  have hmap : (start ++ [entry]).map (entryHash sha256) = (before ++ [last]).map (entryHash sha256) :=
    map_hash_eq_of_tip_eq hchain hchain' (hfree.prevHash_eq hchain hchain' hsub hsub') (hfree.ne_genesis hsub)
      (hfree.ne_genesis hsub') (by rw [tip_concat, tip_concat, heq])
  have hlen : (start ++ [entry]).length = (before ++ [last]).length := by simpa using congrArg List.length hmap
  rw [← hlen, ← List.prefix_iff_eq_take.mp hstart, hmap]

/-- Entries with the same hash agree, in the signature because a genuine one is kept and no other can be made. -/
theorem Agrees.of_hash_eq (hlinked : Linked sha256 S key genesisHash entries) (hgenuine : ChainFrom sha256 genesisHash genuine)
    (hhash : ∀ g ∈ genuine, g.prop (js "hash") = entryHash sha256 g) (hfree : CollisionFree sha256 (entries ++ genuine))
    (hunforged : Unforged sha256 S key entries genuine) (hkeeps : KeepsCheckpoints entries genuine) {entry g : Json}
    (hmem : entry ∈ entries) (hg : g ∈ genuine) (heq : entryHash sha256 entry = entryHash sha256 g) : Agrees entry g := by
  have hown : ∀ x ∈ entries, x.prop (js "hash") = entryHash sha256 x := fun x hx => (hlinked.intact x hx).hash
  refine ⟨?_, by rw [hown entry hmem, hhash g hg, heq], ?_⟩
  · exact utf8_stringify_inj (hfree.hashedBytes_eq (List.mem_append_left _ hmem) (List.mem_append_right _ hg) heq)
  · cases hsig : g.prop (js "checkpointSig") with
    | some sig =>
      obtain ⟨kept, hkept, hkepthash, hkeptsig⟩ := hkeeps g hg sig hsig
      rw [hown kept hkept, hhash g hg, ← heq] at hkepthash
      rw [← hfree.eq_of_hash_eq hlinked.chainFrom (List.subset_append_left _ _) hkept hmem hkepthash]
      exact hkeptsig
    | none =>
      cases hnew : entry.prop (js "checkpointSig") with
      | none => rfl
      | some sig =>
        exfalso
        obtain ⟨g', hg', hhash', hsig'⟩ := hunforged entry hmem sig hnew ((hlinked.intact entry hmem).sig sig hnew)
        have heq' : entryHash sha256 g' = entryHash sha256 g := by rw [← heq, entryHash, entryHash, hhash']
        rw [hfree.eq_of_hash_eq hgenuine (List.subset_append_right _ _) hg' hg heq', hsig] at hsig'
        cases hsig'

theorem KeepsCheckpoints.agrees (hlinked : Linked sha256 S key genesisHash entries)
    (hgenuine : ChainFrom sha256 genesisHash genuine) (hhash : ∀ g ∈ genuine, g.prop (js "hash") = entryHash sha256 g)
    (hfree : CollisionFree sha256 (entries ++ genuine)) (hunforged : Unforged sha256 S key entries genuine)
    (hkeeps : KeepsCheckpoints entries genuine) : AgreesToCheckpoint entries genuine := by
  have hinit := checkpointed_prefix genuine
  unfold AgreesToCheckpoint
  rcases checkpointed_cases genuine with hnil | ⟨before, last, sig, hcheck, hsig⟩
  · rw [hnil]
    exact .nil
  · rw [hcheck] at hinit ⊢
    have hlast : last ∈ genuine := hinit.subset (by simp)
    obtain ⟨entry, hmem, hentry, -⟩ := hkeeps last hlast sig hsig
    rw [(hlinked.intact entry hmem).hash, hhash last hlast] at hentry
    have hmap := hashes_eq_of_last hlinked.chainFrom hgenuine hfree hinit hmem hentry
    have hlen := congrArg List.length hmap
    rw [List.length_map, List.length_map] at hlen
    refine List.forall₂_iff_get.mpr ⟨hlen, fun i hi hi' => ?_⟩
    refine Agrees.of_hash_eq hlinked hgenuine hhash hfree hunforged hkeeps
      (List.mem_of_mem_take (List.get_mem _ _)) (hinit.subset (List.get_mem _ _)) ?_
    have hat := List.getElem_of_eq hmap (i := i) (by rwa [List.length_map])
    rwa [List.getElem_map, List.getElem_map] at hat

variable (N sha256 S) in
/-- **The audit log is tamper evident exactly for files that keep the lines of its checkpoints.** Take the log after
any sequence of appends and key operations, and any file that verifies under the current key. Where no two of the
entries collide and no signature is forged, the entries of the file agree with those of the log up to its last
checkpoint exactly when every checkpoint of the log still has its line there, with its signature. -/
theorem tamper_evident_iff (initial : κ) (ops : List (KeyOp κ)) (file : JsString)
    (hvalid : VerifiesAs sha256 S N (runKeyOps sha256 S initial ops).key file)
    (hfree : CollisionFree sha256 (readAll N file ++ readAll N (runKeyOps sha256 S initial ops).file))
    (hunforged : Unforged sha256 S (runKeyOps sha256 S initial ops).key (readAll N file)
      (readAll N (runKeyOps sha256 S initial ops).file)) :
    AgreesToCheckpoint (readAll N file) (readAll N (runKeyOps sha256 S initial ops).file) ↔
      KeepsCheckpoints (readAll N file) (readAll N (runKeyOps sha256 S initial ops).file) := by
  refine ⟨KeepsCheckpoints.of_agrees, fun hkeeps => ?_⟩
  obtain ⟨es, hholds⟩ := holds_runKeyOps sha256 S initial ops
  have hread : readAll N (runKeyOps sha256 S initial ops).file = es.map AuditEntry.toJson := by
    rw [hholds.file, readAll_text]
  have hlinked := (verifyFrom_valid_iff _ _ _).mp hvalid
  rw [hread] at hfree hunforged hkeeps ⊢
  exact hkeeps.agrees hlinked hholds.chained.chainFrom hholds.chained.prop_hash hfree hunforged

end Tamper

/-! ### A log that was emptied -/

/-- A trust that was withdrawn. -/
def untrustOps : List (KeyOp JsString) := [.append (js "2025-01-01T00:00:00.000Z") (keyEntry (js "plugin.untrust"))]

/-- Its entry. -/
def untrustEntry : AuditEntry :=
  Cursor.start.entry sampleSha sampleScheme (js "first") (js "2025-01-01T00:00:00.000Z") (keyEntry (js "plugin.untrust"))

theorem readAll_untrustOps :
    readAll Numerals.exact (runKeyOps sampleSha sampleScheme (js "first") untrustOps).file = [untrustEntry.toJson] := by
  have htext : (runKeyOps sampleSha sampleScheme (js "first") untrustOps).file = logText [untrustEntry] := by
    rw [logText, List.flatMap_singleton]
    rfl
  rw [htext, readAll_text, List.map_singleton]

theorem untrustEntry_sig : untrustEntry.toJson.prop (js "checkpointSig") = some (.str (js "first" ++ untrustEntry.hash)) := by
  rw [untrustEntry.prop_checkpointSig]
  rfl

theorem checkpointed_untrustEntry : checkpointed [untrustEntry.toJson] = [untrustEntry.toJson] := by
  unfold checkpointed
  rw [List.reverse_singleton, List.dropWhile_cons_of_neg (by rw [untrustEntry_sig]; decide), List.reverse_singleton]

theorem collisionFree_sampleSha (entries : List Json) : CollisionFree sampleSha entries := by
  refine ⟨sampleSha_injective.injOn, fun entry _ h => ?_⟩
  rcases shaOf_cases [(js "a\x00x", sampleDigest)] (hashedBytes entry) with ⟨d, hd, -, hdigest⟩ | hother
  · rw [List.mem_singleton.mp hd] at hdigest
    have hne : sampleDigest ≠ genesisHash := by decide
    exact hne (hdigest.symm.trans h)
  · have hne : (120 : UInt16) ≠ 48 := by decide
    exact hne (List.cons.inj (hother.symm.trans h)).1

/-- The withdrawn trust, and behind it an entry without a signature. -/
def loggedOps (type : JsString) : List (KeyOp JsString) :=
  untrustOps ++ [.append (js "2025-01-01T00:00:01.000Z") (keyEntry type)]

/-- That entry. -/
def laterEntry (type : JsString) : AuditEntry :=
  Cursor.entry sampleSha sampleScheme ⟨untrustEntry.seq, untrustEntry.hash⟩ (js "first") (js "2025-01-01T00:00:01.000Z")
    (keyEntry type)

/-- The log of the two. -/
def loggedRun (type : JsString) : KeyedLog JsString := runKeyOps sampleSha sampleScheme (js "first") (loggedOps type)

theorem loggedRun_holds (type : JsString) :
    (loggedRun type).Holds sampleSha sampleScheme [untrustEntry, laterEntry type] := by
  have hempty : KeyedLog.Holds sampleSha sampleScheme ⟨[], Cursor.start, js "first"⟩ [] := ⟨rfl, trivial, rfl, by simp⟩
  exact (hempty.append _ _).append _ _

theorem readAll_loggedRun (type : JsString) :
    readAll Numerals.exact (loggedRun type).file = [untrustEntry.toJson, (laterEntry type).toJson] := by
  rw [(loggedRun_holds type).file, readAll_text]
  rfl

theorem loggedRun_key (type : JsString) : (loggedRun type).key = js "first" := rfl

theorem loggedRun_verifies (type : JsString) :
    VerifiesAs sampleSha sampleScheme Numerals.exact (js "first") (loggedRun type).file := by
  have hempty : KeyedLog.Holds sampleSha sampleScheme ⟨[], Cursor.start, js "first"⟩ [] := ⟨rfl, trivial, rfl, by simp⟩
  have hverifies : KeyedLog.Verifies Numerals.exact sampleSha sampleScheme ⟨[], Cursor.start, js "first"⟩ := ⟨_, rfl, rfl⟩
  rw [← loggedRun_key type]
  exact (hempty.append _ _).verifies_append (hempty.verifies_append hverifies _ _) _ _

theorem laterEntry_unsigned (type : JsString) (h : AuditEntry.isCheckpoint (0 + 1 + 1) type = false) :
    (laterEntry type).toJson.prop (js "checkpointSig") = none := by
  rw [(laterEntry type).prop_checkpointSig, Option.map_eq_none_iff, laterEntry, Cursor.checkpointSig_entry]
  exact if_neg (by rw [Bool.not_eq_true]; exact h)

theorem mem_readAll_loggedRun (type : JsString) :
    untrustEntry.toJson ∈ readAll Numerals.exact (loggedRun type).file := by
  rw [readAll_loggedRun]
  exact List.mem_cons_self

/-- The last entry was changed into another one, with the hash that belongs to it. The file verifies, and agrees with
the log up to the checkpoint before that entry. -/
theorem tamper_evident_untouched :
    (loggedRun (js "proxy.reload")).file ≠ (loggedRun (js "log.emit")).file ∧
    VerifiesAs sampleSha sampleScheme Numerals.exact (loggedRun (js "log.emit")).key (loggedRun (js "proxy.reload")).file ∧
    AgreesToCheckpoint (readAll Numerals.exact (loggedRun (js "proxy.reload")).file)
      (readAll Numerals.exact (loggedRun (js "log.emit")).file) := by
  have hverifies : VerifiesAs sampleSha sampleScheme Numerals.exact (loggedRun (js "log.emit")).key
      (loggedRun (js "proxy.reload")).file := by
    rw [loggedRun_key]
    exact loggedRun_verifies _
  refine ⟨fun hsame => ?_, hverifies, ?_⟩
  · have hread := congrArg (readAll Numerals.exact) hsame
    rw [readAll_loggedRun, readAll_loggedRun] at hread
    have htype := congrArg (fun e => e.prop (js "type")) (List.cons.inj (List.cons.inj hread).2).1
    simp only [AuditEntry.prop_type, laterEntry, Cursor.input_entry] at htype
    have hne : js "proxy.reload" ≠ js "log.emit" := by decide
    exact hne (Json.str.inj (Option.some.inj htype))
  · refine (tamper_evident_iff Numerals.exact sampleSha sampleScheme (js "first") (loggedOps (js "log.emit")) _
      hverifies (collisionFree_sampleSha _) ?_).mpr ?_
    · intro entry hentry sig hsig _
      rw [readAll_loggedRun, List.mem_pair] at hentry
      rcases hentry with rfl | rfl
      · exact ⟨untrustEntry.toJson, mem_readAll_loggedRun (js "log.emit"), rfl, by rw [hsig]; rfl⟩
      · rw [laterEntry_unsigned (js "proxy.reload") (by decide)] at hsig
        cases hsig
    · intro g hg sig hsig
      change g ∈ readAll Numerals.exact (loggedRun (js "log.emit")).file at hg
      rw [readAll_loggedRun, List.mem_pair] at hg
      rcases hg with rfl | rfl
      · exact ⟨untrustEntry.toJson, mem_readAll_loggedRun _, rfl, hsig⟩
      · rw [laterEntry_unsigned (js "log.emit") (by decide)] at hsig
        cases hsig

/-- An emptied file verifies, although the log had a checkpoint. -/
theorem emptied_log_verifies :
    ¬ ∀ file, VerifiesAs sampleSha sampleScheme Numerals.exact (runKeyOps sampleSha sampleScheme (js "first") untrustOps).key file →
      CollisionFree sampleSha (readAll Numerals.exact file ++
        readAll Numerals.exact (runKeyOps sampleSha sampleScheme (js "first") untrustOps).file) →
      Unforged sampleSha sampleScheme (runKeyOps sampleSha sampleScheme (js "first") untrustOps).key
        (readAll Numerals.exact file)
        (readAll Numerals.exact (runKeyOps sampleSha sampleScheme (js "first") untrustOps).file) →
      AgreesToCheckpoint (readAll Numerals.exact file)
        (readAll Numerals.exact (runKeyOps sampleSha sampleScheme (js "first") untrustOps).file) := by
  intro hclaim
  have hagrees := hclaim [] ⟨_, rfl, rfl⟩ (collisionFree_sampleSha _) (by rw [readAll_nil]; simp [Unforged])
  rw [readAll_untrustOps, AgreesToCheckpoint, checkpointed_untrustEntry, readAll_nil] at hagrees
  cases hagrees

end Wanfw.Orchestrator
