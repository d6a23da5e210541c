import Wanfw.Orchestrator.TrustFlow

/-!
# The current version of a plugin

Several versions of a plugin can have a live trust record, and four places take one of
them out of `listTrustRecords()`, which sorts by id and version text: `invokeTrustedPlugin`
and `resolveDependencies` take the last, `callingPluginTypes` the first, and
`buildComposedSchema` the last whose bundle has a readable schema. None of them looks at
the time of trust.

`versions_agree_iff`: they agree with each other and with the last trust call in every
state of a run, whatever the schema files hold, exactly when no plugin is trusted while
another version of it is, and no bundle with a schema under the hash of another plugin's.
-/

namespace Wanfw.Orchestrator.TrustFlow

open Wanfw.Js StateStore

/-- The tables, and the manifests in the bundle directories by their hash. -/
structure Installed where
  tables : Tables
  manifests : JsString → Option Manifest

/-! ### Taking one record -/

/-- The value that a map or an object has under a key after these pairs were set, one after the other. -/
def lastSet {α : Type} (pairs : List (JsString × α)) (k : JsString) : Option α :=
  (pairs.filter fun e => e.1 = k).getLast?.map (·.2)

/-- `invokeTrustedPlugin`: `latest`. -/
def invokedRecord (t : Tables) (id : JsString) : Option TrustRecordRow := (t.recordsOf id).getLast?

/-- `resolveDependencies`: `trustedByPluginId.get(id)`. -/
def resolvedRecord (t : Tables) (id : JsString) : Option TrustRecordRow :=
  lastSet (t.listTrustRecords.map fun r => (r.pluginId, r)) id

/-- `callingPluginTypes`: `trusted[0]`. -/
def typesRecord (t : Tables) (id : JsString) : Option TrustRecordRow := (t.recordsOf id).head?

/-- Whether a value passes `if (!schema) continue`. -/
def truthySchema : Json → Bool
  | .null => false
  | .bool b => b
  | .num d => d.digits ≠ 0
  | .str s => s ≠ []
  | _ => true

/-- The path of the schema of a manifest. -/
def Manifest.schemaPath (m : Manifest) : Option JsString := m.configSchema.filter fun path => path ≠ []

section Schema

variable (readConfigSchema : JsString → JsString → Option Json)

/-- The schema of a manifest that is stored under a hash. -/
def offeredSchema (m : Manifest) (sha256 : JsString) : Option Json :=
  m.schemaPath.bind fun path => (readConfigSchema sha256 path).filter truthySchema

/-- A round of the loop of `buildComposedSchema`: the key and the schema that a record sets. -/
def schemaOf (s : Installed) (r : TrustRecordRow) : Option (JsString × TrustRecordRow × Json) :=
  (s.manifests r.sha256).bind fun m => (offeredSchema readConfigSchema m r.sha256).map fun schema => (m.id, r, schema)

/-- `buildComposedSchema`: what is set in `pluginConfigSchemas`, with the record that it comes from. -/
def pluginConfigSchemas (s : Installed) : List (JsString × TrustRecordRow × Json) :=
  s.tables.listTrustRecords.filterMap (schemaOf readConfigSchema s)

/-- The record whose schema is published for a plugin. -/
def publishedRecord (s : Installed) (id : JsString) : Option TrustRecordRow :=
  (lastSet (pluginConfigSchemas readConfigSchema s) id).map (·.1)

end Schema

/-! ### Calls -/

section Calls

variable {κ : Type} (N : Numerals) (S : SignatureScheme κ)

/-- The tables and the bundles after a call: a bundle is stored before it is recorded. -/
def Installed.call (s : Installed) (c : Call κ) : Installed where
  tables := attempt N S s.tables c none
  manifests := match c.trusts with
    | some (m, sha256) => Function.update s.manifests sha256 (some m)
    | none => s.manifests

/-- After a sequence of calls on a new store. -/
def installAll (calls : List (Call κ)) : Installed := calls.foldl (Installed.call N S) ⟨.empty, fun _ => none⟩

end Calls

/-- The live record of the manifest in force. -/
def currentRecord (t : Tables) (cur : Trusted) (id : JsString) : Option TrustRecordRow :=
  (cur id).bind fun p => t.listTrustRecords.find? fun r => r.key = (id, p.1.version)

section Agreement

/-- All four take the most recently trusted record of each plugin; its schema is published if it has one. -/
def Agree (readConfigSchema : JsString → JsString → Option Json) (s : Installed) (cur : Trusted) : Prop := ∀ id,
  invokedRecord s.tables id = currentRecord s.tables cur id ∧
  resolvedRecord s.tables id = currentRecord s.tables cur id ∧
  typesRecord s.tables id = currentRecord s.tables cur id ∧
  publishedRecord readConfigSchema s id =
    (currentRecord s.tables cur id).filter fun r => (schemaOf readConfigSchema s r).isSome

/-- A trust call, if it is one, is for a plugin of which no other version is trusted, and does not put a manifest
with a schema under the hash of another plugin's bundle. -/
def Replaces {κ : Type} (t : Tables) (c : Call κ) : Prop :=
  ∀ m sha256, c.trusts = some (m, sha256) →
    (∀ r, t.LiveRecord r → r.pluginId = m.id → r.version = m.version) ∧
    ∀ r, t.LiveRecord r → r.sha256 = sha256 → r.pluginId ≠ m.id → m.schemaPath = none

/-- At most one version of each plugin lives, and its bundle is its own, or has no schema. -/
structure OneVersion (s : Installed) : Prop where
  unique : ∀ r r', s.tables.LiveRecord r → s.tables.LiveRecord r' → r.pluginId = r'.pluginId → r = r'
  stored : ∀ r, s.tables.LiveRecord r → ∃ m, s.manifests r.sha256 = some m ∧ (m.id = r.pluginId ∨ m.schemaPath = none)

variable {κ : Type} {N : Numerals} {S : SignatureScheme κ} {s : Installed} {cur : Trusted} {c : Call κ} {id : JsString}
  {readConfigSchema : JsString → JsString → Option Json}

/-! ### Agreement of a state -/

theorem resolvedRecord_eq (t : Tables) (id : JsString) : resolvedRecord t id = invokedRecord t id := by
  unfold resolvedRecord invokedRecord lastSet Tables.recordsOf
  rw [List.filter_map, List.getLast?_map, Option.map_map]
  exact Option.map_id'

theorem recordsOf_eq_singleton (h : OneVersion s) {r : TrustRecordRow} (hr : s.tables.LiveRecord r) :
    s.tables.recordsOf r.pluginId = [r] := by
  have hnodup := (nodup_recordsOf s.tables r.pluginId).of_map
  have hall : ∀ x ∈ s.tables.recordsOf r.pluginId, x = r := by
    intro x hx
    obtain ⟨hlive, hid⟩ := Tables.mem_recordsOf.mp hx
    exact h.unique x r hlive hr hid
  have hmem : r ∈ s.tables.recordsOf r.pluginId := Tables.mem_recordsOf.mpr ⟨hr, rfl⟩
  rcases hlist : s.tables.recordsOf r.pluginId with _ | ⟨x, xs⟩
  · rw [hlist] at hmem
    cases hmem
  · rw [hlist] at hall hnodup
    have hx := hall x List.mem_cons_self
    rcases xs with _ | ⟨y, ys⟩
    · rw [hx]
    · have hy := hall y (List.mem_cons_of_mem _ List.mem_cons_self)
      exact absurd (hx.trans hy.symm) (fun heq => (List.nodup_cons.mp hnodup).1 (heq ▸ List.mem_cons_self))

theorem find?_key {t : Tables} {r : TrustRecordRow} (hr : t.LiveRecord r) :
    (t.listTrustRecords.find? fun x => x.key = r.key) = some r := by
  rcases hfind : t.listTrustRecords.find? fun x => x.key = r.key with _ | x
  · have := List.find?_eq_none.mp hfind r (Tables.mem_listTrustRecords.mpr hr)
    simp at this
  · have hkey : x.key = r.key := by simpa using List.find?_some hfind
    have hx := Tables.mem_listTrustRecords.mp (List.mem_of_find?_eq_some hfind)
    rw [hfind, Store.Table.eq_of_key_eq hx.1 hr.1 hkey]

/-- The record that a schema comes from. -/
theorem record_of_schemaOf {r : TrustRecordRow} {e : JsString × TrustRecordRow × Json}
    (h : schemaOf readConfigSchema s r = some e) : e.2.1 = r := by
  obtain ⟨m, -, hm⟩ := Option.bind_eq_some_iff.mp h
  obtain ⟨schema, -, rfl⟩ := Option.map_eq_some_iff.mp hm
  rfl

/-- Filtering what a function makes of a list is filtering the list, if the tests agree. -/
theorem filter_filterMap_eq {α β : Type} {f : α → Option β} {p : β → Bool} {q : α → Bool} {l : List α}
    (h : ∀ x ∈ l, ∀ y, f x = some y → p y = q x) : (l.filterMap f).filter p = (l.filter q).filterMap f := by
  induction l with
  | nil => rfl
  | cons x l ih =>
    have ih := ih fun x' hx' => h x' (List.mem_cons_of_mem _ hx')
    have hx := h x List.mem_cons_self
    rw [List.filterMap_cons, List.filter_cons]
    cases hfx : f x with
    | none =>
      rw [ih]
      split
      · rw [List.filterMap_cons, hfx]
      · rfl
    | some y =>
      rw [List.filter_cons, hx y hfx, ih]
      split
      · rw [List.filterMap_cons, hfx]
      · rfl

/-- Where every bundle is its plugin's own, a record sets the schema of its plugin. -/
theorem publishedRecord_eq (h : OneVersion s) (id : JsString) :
    publishedRecord readConfigSchema s id =
      (((s.tables.recordsOf id).filterMap (schemaOf readConfigSchema s)).getLast?.map (·.2)).map (·.1) := by
  unfold publishedRecord lastSet pluginConfigSchemas Tables.recordsOf
  rw [filter_filterMap_eq]
  intro r hr y hy
  obtain ⟨m, hm, hown⟩ := h.stored r (Tables.mem_listTrustRecords.mp hr)
  rw [schemaOf, hm] at hy
  obtain ⟨schema, hschema, rfl⟩ := Option.map_eq_some_iff.mp hy
  rcases hown with hid | hnone
  · simp only [hid]
  · rw [offeredSchema, hnone] at hschema
    cases hschema

/-- **Where one version of each plugin lives, all agree.** -/
theorem agree_of_oneVersion (h : OneVersion s) (htracks : Tracks s.tables cur) : Agree readConfigSchema s cur := by
  intro id
  rw [resolvedRecord_eq, publishedRecord_eq h, invokedRecord, typesRecord, currentRecord]
  rcases hcur : cur id with _ | ⟨m, sha256⟩
  · have hnil : s.tables.recordsOf id = [] := by
      refine List.eq_nil_iff_forall_not_mem.mpr fun r hr => ?_
      obtain ⟨hlive, hid⟩ := Tables.mem_recordsOf.mp hr
      exact htracks.known r hlive (hid ▸ hcur)
    simp [hnil]
  · obtain ⟨r, hr, hkey, -⟩ := htracks.live id m sha256 hcur
    have hid : r.pluginId = id := congrArg Prod.fst hkey
    have hsingle := recordsOf_eq_singleton h hr
    rw [hid] at hsingle
    have hfind := find?_key hr
    rw [hkey] at hfind
    simp only [Option.bind_some, hfind, hsingle, List.getLast?_singleton, List.head?_cons, true_and]
    cases hschema : schemaOf readConfigSchema s r with
    | none => simp [Option.filter, hschema]
    | some e => simp [Option.filter, hschema, record_of_schemaOf hschema]

/-- Where the first and the last of a list without repetition are the same, there is no other. -/
theorem eq_of_head?_eq_getLast? {α : Type} {l : List α} (hnodup : l.Nodup) (h : l.getLast? = l.head?) {x y : α}
    (hx : x ∈ l) (hy : y ∈ l) : x = y := by
  rcases l with _ | ⟨a, _ | ⟨b, l⟩⟩
  · cases hx
  · rw [List.mem_singleton.mp hx, List.mem_singleton.mp hy]
  · rw [List.getLast?_cons_cons, List.head?_cons] at h
    exact absurd (List.mem_of_getLast? h) (List.nodup_cons.mp hnodup).1

/-- **Where all agree, one version of each plugin lives.** -/
theorem unique_of_agree (h : Agree readConfigSchema s cur) {r r' : TrustRecordRow} (hr : s.tables.LiveRecord r)
    (hr' : s.tables.LiveRecord r') (hid : r.pluginId = r'.pluginId) : r = r' := by
  obtain ⟨hinvoked, -, htypes, -⟩ := h r'.pluginId
  exact eq_of_head?_eq_getLast? (nodup_recordsOf _ _).of_map (hinvoked.trans htypes.symm)
    (Tables.mem_recordsOf.mpr ⟨hr, hid⟩) (Tables.mem_recordsOf.mpr ⟨hr', rfl⟩)

/-- Where all agree and a record has a schema to publish, the bundle is its plugin's own. -/
theorem id_of_agree (h : Agree readConfigSchema s cur) {r : TrustRecordRow} (hr : s.tables.LiveRecord r) {m : Manifest}
    (hm : s.manifests r.sha256 = some m) (hschema : (offeredSchema readConfigSchema m r.sha256).isSome) :
    m.id = r.pluginId := by
  obtain ⟨schema, hschema⟩ := Option.isSome_iff_exists.mp hschema
  have hof : schemaOf readConfigSchema s r = some (m.id, r, schema) := by
    rw [schemaOf, hm]
    simp only [Option.bind_some, hschema, Option.map_some]
  obtain ⟨hinvoked, -, -, hpublished⟩ := h r.pluginId
  have hmem : r ∈ s.tables.recordsOf r.pluginId := Tables.mem_recordsOf.mpr ⟨hr, rfl⟩
  obtain ⟨x, hx⟩ := Option.ne_none_iff_exists'.mp (mt List.getLast?_eq_none_iff.mp (List.ne_nil_of_mem hmem))
  have hxr : x = r := by
    obtain ⟨hlive, hxid⟩ := Tables.mem_recordsOf.mp (List.mem_of_getLast? hx)
    exact unique_of_agree h hlive hr hxid
  rw [← hinvoked, invokedRecord, hx, hxr] at hpublished
  simp only [Option.filter, hof, Option.isSome_some, if_true] at hpublished
  obtain ⟨p, hp, hpr⟩ := Option.map_eq_some_iff.mp hpublished
  obtain ⟨e, he, rfl⟩ := Option.map_eq_some_iff.mp hp
  obtain ⟨hset, hkey⟩ := List.mem_filter.mp (List.mem_of_getLast? he)
  obtain ⟨r', -, hr'⟩ := List.mem_filterMap.mp hset
  rw [← record_of_schemaOf hr', hpr, hof] at hr'
  cases hr'
  simpa using hkey

/-! ### Runs -/

/-- **One call**, where one version of each plugin lives. -/
theorem oneVersion_call (h : OneVersion s) (hread : CapsReadable N s.tables) (hc : Replaces s.tables c) :
    OneVersion (s.call N S c) := by
  unfold Installed.call
  rcases htrusts : c.trusts with _ | ⟨m, sha256⟩
  · have hold : ∀ r, (attempt N S s.tables c none).LiveRecord r → s.tables.LiveRecord r := by
      intro r hr
      rcases huntrusts : c.untrusts with _ | id
      · rwa [attempt_of_neither htrusts huntrusts] at hr
      · by_cases hlive : s.tables.recordsOf id = []
        · rwa [attempt_of_untrusts_nil huntrusts hlive] at hr
        · exact (((attempt_of_untrusts huntrusts hlive).1 r).mp hr).1
    exact ⟨fun r r' hr hr' => h.unique r r' (hold r hr) (hold r' hr'), fun r hr => h.stored r (hold r hr)⟩
  · obtain ⟨key, now, hrecords, -⟩ := attempt_of_trusts (S := S) hread htrusts
    obtain ⟨hversion, hhash⟩ := hc m sha256 htrusts
    -- a record that stays is one of another plugin
    have hother : ∀ r, s.tables.LiveRecord r → r.key ≠ (m.id, m.version) → r.pluginId ≠ m.id :=
      fun r hr hkey heq => hkey (Prod.ext heq (hversion r hr heq))
    refine ⟨fun r r' hr hr' hid => ?_, fun r hr => ?_⟩
    · rcases (hrecords r).mp hr with rfl | ⟨hr, hkey⟩
      · rcases (hrecords r').mp hr' with rfl | ⟨hr', hkey'⟩
        · rfl
        · exact absurd hid.symm (hother r' hr' hkey')
      · rcases (hrecords r').mp hr' with rfl | ⟨hr', -⟩
        · exact absurd hid (hother r hr hkey)
        · exact h.unique r r' hr hr' hid
    · dsimp only
      rcases (hrecords r).mp hr with rfl | ⟨hr, hkey⟩
      · exact ⟨m, Function.update_self .., .inl rfl⟩
      · by_cases hsha : r.sha256 = sha256
        · exact ⟨m, by rw [hsha, Function.update_self], .inr (hhash r hr hsha (hother r hr hkey))⟩
        · rw [Function.update_of_ne hsha]
          exact h.stored r hr

theorem installAll_concat (calls : List (Call κ)) (c : Call κ) :
    installAll N S (calls ++ [c]) = (installAll N S calls).call N S c := List.foldl_concat _ _ _ _

theorem installAll_tables (calls : List (Call κ)) : (installAll N S calls).tables = runCalls N S calls := by
  induction calls using List.reverseRecOn with
  | nil => rfl
  | append_singleton calls c ih => rw [installAll_concat, runCalls_concat, ← ih, Installed.call]

/-- A call after which all agree replaces what was trusted. -/
theorem replaces_of_agree (cur : Trusted) (hread : CapsReadable N s.tables)
    (h : ∀ readConfigSchema, Agree readConfigSchema (s.call N S c) (cur.after c)) : Replaces s.tables c := by
  intro m sha256 htrusts
  obtain ⟨key, now, hrecords, -⟩ := attempt_of_trusts (S := S) hread htrusts
  have hnew : (s.call N S c).tables.LiveRecord (signedRecord S key now m sha256) := (hrecords _).mpr (.inl rfl)
  refine ⟨fun r hr hid => by_contra fun hne => ?_, fun r hr hsha hid => by_contra fun hpath => ?_⟩
  · have hkept : (s.call N S c).tables.LiveRecord r :=
      (hrecords r).mpr (.inr ⟨hr, fun hkey => hne (congrArg Prod.snd hkey)⟩)
    have heq := unique_of_agree (h fun _ _ => none) hkept hnew hid
    exact hne (congrArg TrustRecordRow.version heq)
  · have hkept : (s.call N S c).tables.LiveRecord r :=
      (hrecords r).mpr (.inr ⟨hr, fun hkey => hid (congrArg Prod.fst hkey)⟩)
    have hm : (s.call N S c).manifests r.sha256 = some m := by
      rw [Installed.call, htrusts, hsha]
      exact Function.update_self ..
    obtain ⟨path, hpath⟩ := Option.ne_none_iff_exists'.mp hpath
    refine hid (id_of_agree (h fun _ _ => some (.bool true)) hkept hm ?_).symm
    rw [offeredSchema, hpath]
    rfl

variable (N S) in
/-- **All components agree on the current version exactly when every trust call replaces what was trusted.**
After every call of a run, whatever the schema files hold, the record that is invoked, the one dependency
resolution reads, the one whose types count and the one whose schema is published are the most recently
trusted live one, if and only if every trust call is for a plugin of which no other version is trusted, and
puts no manifest with a schema under the hash of another plugin's bundle. -/
theorem versions_agree_iff (calls : List (Call κ)) :
    (∀ pre, pre <+: calls → ∀ readConfigSchema, Agree readConfigSchema (installAll N S pre) (current pre)) ↔
    ∀ pre c, pre ++ [c] <+: calls → Replaces (installAll N S pre).tables c := by
  have hread : ∀ pre : List (Call κ), CapsReadable N (installAll N S pre).tables := by
    intro pre
    rw [installAll_tables]
    exact capsReadable_runCalls N S pre
  constructor
  · intro hagree pre c hinit
    refine replaces_of_agree (N := N) (S := S) (current pre) (hread pre) fun readConfigSchema => ?_
    have hafter := hagree _ hinit readConfigSchema
    rwa [installAll_concat, current, List.foldl_concat] at hafter
  · intro hreplaces pre hinit readConfigSchema
    have hone : OneVersion (installAll N S pre) := by
      induction pre using List.reverseRecOn with
      | nil => exact ⟨fun _ _ hr => absurd hr.1 List.not_mem_nil, fun _ hr => absurd hr.1 List.not_mem_nil⟩
      | append_singleton pre c ih =>
        rw [installAll_concat]
        exact oneVersion_call (ih ((List.prefix_append pre [c]).trans hinit)) (hread pre) (hreplaces pre c hinit)
    refine agree_of_oneVersion hone ?_
    rw [installAll_tables]
    exact tracks_runCalls N S pre

end Agreement

/-- Both versions live, and the types are taken from the first while the second is invoked. -/
theorem upgrade_keeps_old_types :
    ¬ ∀ readConfigSchema, Agree readConfigSchema (installAll Numerals.exact sampleScheme upgradeCalls)
      (current upgradeCalls) := by
  intro h
  obtain ⟨hinvoked, -, htypes, -⟩ := h (fun _ _ => none) (js "deploy-docker")
  have hsame := hinvoked.trans htypes.symm
  revert hsame
  decide +kernel

end Wanfw.Orchestrator.TrustFlow
