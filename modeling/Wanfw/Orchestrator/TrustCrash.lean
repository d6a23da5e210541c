import Wanfw.Orchestrator.TrustFlow

/-!
# Crashes in the trust flow

Trusting and untrusting are several writes without a transaction, and the process may
stop between any two of them. A trust call writes the record before the grants, so that
every grant has its record at every point. An untrust call revokes the records first:
once the last of them is gone and grants are left, the grants outlive the trust, and a
second untrust call throws because it finds no record (`grants_covered_iff`).
-/

namespace Wanfw.Orchestrator.TrustFlow

open Wanfw.Js StateStore

variable {κ : Type} {N : Numerals} {S : SignatureScheme κ} {t : Tables} {c : Call κ} {id : JsString}

/-- A plugin with a live grant has a live trust record. -/
def Covered (t : Tables) : Prop := ∀ g, t.LiveGrant g → ∃ r, t.LiveRecord r ∧ r.pluginId = g.pluginId

/-- No record and no grant of the plugin lives. -/
def Revoked (t : Tables) (id : JsString) : Prop :=
  (∀ r, t.LiveRecord r → r.pluginId ≠ id) ∧ ∀ g, t.LiveGrant g → g.pluginId ≠ id

variable (N S) in
/-- The tables after a sequence of calls on a new store, each with the point where the process stopped, if it did. -/
def runAttempts (steps : List (Call κ × Option ℕ)) : Tables := steps.foldl (fun t s => attempt N S t s.1 s.2) .empty

/-- An untrust call that stops leaves a record of the plugin, or has revoked all of its grants. -/
def StopsApart (t : Tables) (id : JsString) (k : ℕ) : Prop :=
  k < (t.recordsOf id).length ∨ (t.recordsOf id).length + (t.listGrants id).length ≤ k

theorem capsReadable_runAttempts (steps : List (Call κ × Option ℕ)) : CapsReadable N (runAttempts N S steps) := by
  induction steps using List.reverseRecOn with
  | nil => exact capsReadable_empty
  | append_singleton steps s ih =>
    rw [runAttempts, List.foldl_concat]
    exact capsReadable_attempt ih s.1 s.2

/-! ### One call -/

/-- Where no key occurs twice, the key of an element is not among those before it. -/
theorem key_not_mem_take {α β : Type} {f : α → β} {l : List α} (h : (l.map f).Nodup) {k : ℕ} (hk : k < l.length) :
    f l[k] ∉ (l.take k).map f := by
  have hk' : k < (l.map f).length := by rwa [List.length_map]
  have hdrop : f l[k] ∈ (l.map f).drop k := by
    rw [List.drop_eq_getElem_cons hk', List.getElem_map]
    exact List.mem_cons_self
  rw [List.map_take]
  exact fun htake => List.disjoint_take_drop h (le_refl k) htake hdrop

/-- Trusting covers its grants at every point: the record comes first. -/
theorem covered_trust_take (h : Covered t) (key : κ) (now : JsString) (m : Manifest) (sha256 : JsString) (k : ℕ) :
    Covered (t.writeAll ((.insertTrustRecord (signedRecord S key now m sha256) ::
      (m.capabilities.map (signedGrant S key now m)).map .insertGrant).take k)) := by
  cases k with
  | zero => exact h
  | succ k =>
    obtain ⟨hrecords, hgrants⟩ := writeAll_trust_take (S := S) t key now m sha256 k
    intro g hg
    rcases (hgrants g.content).mp ⟨g, hg, rfl⟩ with ⟨g', hg', heq⟩ | ⟨c, -, heq⟩
    · have hid : g'.content.pluginId = g.content.pluginId := by rw [heq]
      obtain ⟨r, hr, hrid⟩ := h g' hg'
      by_cases hkey : r.key = (m.id, m.version)
      · have hrm : r.pluginId = m.id := congrArg Prod.fst hkey
        exact ⟨_, (hrecords _).mpr (.inl rfl), hrm.symm.trans (hrid.trans hid)⟩
      · exact ⟨r, (hrecords r).mpr (.inr ⟨hr, hkey⟩), hrid.trans hid⟩
    · exact ⟨_, (hrecords _).mpr (.inl rfl), congrArg StateStore.GrantRow.pluginId heq⟩

/-- Untrusting covers the grants that are left if and only if it does not stop between the last record
and the last grant. -/
theorem covered_untrust_take_iff (h : Covered t) (now id : JsString) (k : ℕ) :
    Covered (t.writeAll ((revokeRecords now (t.recordsOf id) ++ revokeGrants now (t.listGrants id)).take k)) ↔
      StopsApart t id k := by
  obtain ⟨hrecords, hgrants⟩ := writeAll_untrust_take t now (t.recordsOf id) (t.listGrants id) k
  constructor
  · intro hcovered
    by_contra hnot
    obtain ⟨hk, hk'⟩ := not_or.mp hnot
    have hlt : k - (t.recordsOf id).length < (t.listGrants id).length := by omega
    have hmem : (t.listGrants id)[k - (t.recordsOf id).length] ∈ t.listGrants id := List.getElem_mem hlt
    obtain ⟨hlive, hid⟩ := Tables.mem_listGrants.mp hmem
    obtain ⟨r, hr, hrid⟩ := hcovered _ ((hgrants _).mpr ⟨hlive, key_not_mem_take (nodup_listGrants t id) hlt⟩)
    obtain ⟨hr, hkey⟩ := (hrecords r).mp hr
    rw [List.take_of_length_le (by omega)] at hkey
    exact hkey ((key_mem_recordsOf hr).mpr (hrid.trans hid))
  · rintro (hk | hk) g hg
    · obtain ⟨hg, -⟩ := (hgrants g).mp hg
      by_cases hid : g.pluginId = id
      · -- the next record to be revoked is still there
        have hmem : (t.recordsOf id)[k] ∈ t.recordsOf id := List.getElem_mem hk
        obtain ⟨hlive, hrid⟩ := Tables.mem_recordsOf.mp hmem
        exact ⟨_, (hrecords _).mpr ⟨hlive, key_not_mem_take (nodup_recordsOf t id) hk⟩, hrid.trans hid.symm⟩
      · obtain ⟨r, hr, hrid⟩ := h g hg
        refine ⟨r, (hrecords r).mpr ⟨hr, fun hkey => hid ?_⟩, hrid⟩
        rw [List.map_take] at hkey
        exact hrid.symm.trans ((key_mem_recordsOf hr).mp (List.mem_of_mem_take hkey))
    · obtain ⟨hg, hnot⟩ := (hgrants g).mp hg
      rw [List.take_of_length_le (by omega)] at hnot
      have hid : g.pluginId ≠ id := fun heq => hnot ((id_mem_listGrants hg).mpr heq)
      obtain ⟨r, hr, hrid⟩ := h g hg
      refine ⟨r, (hrecords r).mpr ⟨hr, fun hkey => hid ?_⟩, hrid⟩
      rw [List.map_take] at hkey
      exact hrid.symm.trans ((key_mem_recordsOf hr).mp (List.mem_of_mem_take hkey))

/-- In a covered state a complete untrust call leaves nothing of the plugin. -/
theorem revoked_of_covered (h : Covered t) (hc : c.untrusts = some id) : Revoked (attempt N S t c none) id := by
  by_cases hlive : t.recordsOf id = []
  · rw [attempt_of_untrusts_nil hc hlive]
    have hrecords : ∀ r, t.LiveRecord r → r.pluginId ≠ id := by
      intro r hr heq
      have := Tables.mem_recordsOf.mpr ⟨hr, heq⟩
      rw [hlive] at this
      exact absurd this List.not_mem_nil
    refine ⟨hrecords, fun g hg heq => ?_⟩
    obtain ⟨r, hr, hrid⟩ := h g hg
    exact hrecords r hr (hrid.trans heq)
  · obtain ⟨hrecords, hgrants⟩ := attempt_of_untrusts (N := N) (S := S) hc hlive
    exact ⟨fun r hr => ((hrecords r).mp hr).2, fun g hg => ((hgrants g).mp hg).2⟩

/-- The stop of a step, if it is an untrust call that stops. -/
def StopsSafely (t : Tables) (s : Call κ × Option ℕ) : Prop :=
  ∀ id k, s.1.untrusts = some id → s.2 = some k → StopsApart t id k

/-- **One call**, with or without a stop. -/
theorem covered_attempt_iff (hread : CapsReadable N t) (h : Covered t) (c : Call κ) (stop : Option ℕ) :
    Covered (attempt N S t c stop) ↔ StopsSafely t (c, stop) := by
  unfold StopsSafely
  rcases htrusts : c.trusts with _ | ⟨m, sha256⟩
  · rcases huntrusts : c.untrusts with _ | id
    · rw [attempt_of_neither htrusts huntrusts]
      simpa using h
    · cases stop with
      | none =>
        simp only [reduceCtorEq, false_implies, implies_true, iff_true]
        intro g hg
        by_cases hlive : t.recordsOf id = []
        · rw [attempt_of_untrusts_nil huntrusts hlive] at hg ⊢
          exact h g hg
        · obtain ⟨hrecords, hgrants⟩ := attempt_of_untrusts (N := N) (S := S) huntrusts hlive
          obtain ⟨hg, hne⟩ := (hgrants g).mp hg
          obtain ⟨r, hr, hrid⟩ := h g hg
          exact ⟨r, (hrecords r).mpr ⟨hr, fun heq => hne (hrid.symm.trans heq)⟩, hrid⟩
      | some k =>
        have hthis : (∀ i n, some id = some i → some k = some n → StopsApart t i n) ↔ StopsApart t id k :=
          ⟨fun h => h id k rfl rfl, by rintro h _ _ ⟨⟩ ⟨⟩; exact h⟩
        rw [hthis]
        by_cases hlive : t.recordsOf id = []
        · rw [attempt_of_untrusts_nil huntrusts hlive]
          have hgrants : t.listGrants id = [] := by
            refine List.eq_nil_iff_forall_not_mem.mpr fun g hg => ?_
            obtain ⟨hg, hid⟩ := Tables.mem_listGrants.mp hg
            obtain ⟨r, hr, hrid⟩ := h g hg
            have := Tables.mem_recordsOf.mpr ⟨hr, hrid.trans hid⟩
            rw [hlive] at this
            exact absurd this List.not_mem_nil
          exact iff_of_true h (.inr (by simp [hlive, hgrants]))
        · obtain ⟨now, hwrites⟩ := writes_of_untrusts (N := N) (S := S) (t := t) huntrusts
          rw [if_neg (by simpa using hlive)] at hwrites
          rw [attempt, hwrites]
          exact covered_untrust_take_iff h now id k
  · have huntrusts := untrusts_eq_none htrusts
    simp only [huntrusts, reduceCtorEq, false_implies, implies_true, iff_true]
    obtain ⟨key, now, hwrites⟩ := writes_of_trusts (S := S) hread htrusts
    cases stop with
    | none =>
      rw [attempt_none, attempt, hwrites]
      exact covered_trust_take h key now m sha256 _
    | some k =>
      rw [attempt, hwrites]
      exact covered_trust_take h key now m sha256 k

/-! ### Runs -/

variable (N S) in
/-- **Grants do not outlive trust exactly when no untrust call stops between its last record and its last
grant.** In every state of a run each plugin with a live grant has a live trust record, and after an untrust
call that stopped another one leaves neither, if and only if every untrust call that stops does so while a
record of the plugin is left or when no grant is. -/
theorem grants_covered_iff (steps : List (Call κ × Option ℕ)) :
    ((∀ pre, pre <+: steps → Covered (runAttempts N S pre)) ∧
      ∀ pre s id, pre ++ [s] <+: steps → s.1.untrusts = some id → s.2 ≠ none →
        ∀ again : Call κ, again.untrusts = some id →
          Revoked (attempt N S (runAttempts N S (pre ++ [s])) again none) id) ↔
    ∀ pre s, pre ++ [s] <+: steps → StopsSafely (runAttempts N S pre) s := by
  have hstep : ∀ pre s, Covered (runAttempts N S pre) →
      (Covered (runAttempts N S (pre ++ [s])) ↔ StopsSafely (runAttempts N S pre) s) := by
    intro pre s hpre
    rw [runAttempts, List.foldl_concat]
    exact covered_attempt_iff (capsReadable_runAttempts pre) hpre s.1 s.2
  constructor
  · rintro ⟨hcovered, -⟩ pre s hinit
    exact (hstep pre s (hcovered pre ((List.prefix_append pre [s]).trans hinit))).mp (hcovered _ hinit)
  · intro hsafe
    have hcovered : ∀ pre, pre <+: steps → Covered (runAttempts N S pre) := by
      intro pre hinit
      induction pre using List.reverseRecOn with
      | nil => exact fun g hg => absurd hg.1 List.not_mem_nil
      | append_singleton pre s ih =>
        exact (hstep pre s (ih ((List.prefix_append pre [s]).trans hinit))).mpr (hsafe pre s hinit)
    exact ⟨hcovered, fun pre s id hinit _ _ again hagain => revoked_of_covered (hcovered _ hinit) hagain⟩

/-- `deploy-docker` is trusted, and the untrust call stops after its first write. -/
def crashedUntrust : List (Call JsString × Option ℕ) :=
  [] ++ [(trustCall deployManifest2 (js "h2"), none)] ++
    [(.untrustPlugin ⟨js "key", [], js "2025-01-01T00:00:01.000Z"⟩ (js "deploy-docker"), some 1)]

/-- The record is revoked and the grant is left: it outlives the trust. -/
theorem crashed_untrust_leaves_grant :
    ¬ ∀ pre, pre <+: crashedUntrust → Covered (runAttempts Numerals.exact sampleScheme pre) := by
  intro h
  have htrusted := h ([] ++ [(trustCall deployManifest2 (js "h2"), none)]) (List.prefix_append _ _)
  have hstopped := h crashedUntrust List.prefix_rfl
  rw [crashedUntrust, runAttempts, List.foldl_concat] at hstopped
  have hsafe := (covered_attempt_iff (capsReadable_runAttempts _) htrusted _ _).mp hstopped (js "deploy-docker") 1 rfl rfl
  revert hsafe
  unfold StopsApart
  decide +kernel

end Wanfw.Orchestrator.TrustFlow
