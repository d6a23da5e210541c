import Wanfw.Js.Arrays
import Wanfw.Js.Path
import Wanfw.Js.Utf8
import Wanfw.Store.FileTree

/-!
# The secrets store

`secrets/store.ts`: a secret is the file of its name below the directory of the store. The names that are
meant have two segments, `<pluginOrCore>/<name>`, and the listing walks two levels; a name of any depth can
be set and read, though.

The file system has its names and contents in UTF-8. Modes are left out; what a file system refuses makes a
call fail, and the runs here are those in which all calls succeed. `secrets_complete_iff`: after such a run
the listing is complete, and a name is read as it was last set, exactly when every secret that is left has
two segments, the name is not one above a name that was ever set, and its value is a well-formed text.
-/

namespace Wanfw.Orchestrator.Secrets

open Wanfw.Js Wanfw.Store

/-! ### The source -/

/-- A file: what is in it, and when it was last written, as `toISOString` has it. -/
structure SecretFile where
  bytes : List UInt8
  mtime : JsString
  deriving DecidableEq

abbrev Tree := FileTree (List UInt8) SecretFile

/-- `SecretListEntry`. -/
structure SecretListEntry where
  name : JsString
  lastRotated : JsString
  deriving DecidableEq

section Store

variable (cwd : List JsString) (secretsDir : JsString)

/-- Where a path leads, in the bytes of the file system. -/
def place (path : JsString) : List (List UInt8) := (resolved cwd path).map utf8

/-- `secretPath`. -/
def secretPath (name : JsString) : JsString := joinPath secretsDir name

/-- `putSecret`, at this time. -/
def putSecret (name value now : JsString) (t : Tree) : Option Tree := do
  let path := place cwd (secretPath secretsDir name)
  let t ← t.mkdirp path.dropLast
  t.writeFile path ⟨utf8 value, now⟩

/-- `getSecret`. A directory cannot be read. -/
def getSecret (name : JsString) (t : Tree) : Option (Option JsString) :=
  let path := place cwd (secretPath secretsDir name)
  if (t.node path).isNone then some none
  else (t.readFile path).map fun file => some (decodeUtf8 file.bytes)

/-- `unsetSecret`: `rmSync` with `force` alone removes no directory, and is content with nothing. -/
def unsetSecret (name : JsString) (t : Tree) : Option Tree :=
  let path := place cwd (secretPath secretsDir name)
  if t.isDir path then none else some (t.remove path)

/-- `readdirSync`. -/
def readdirSync (t : Tree) (path : JsString) : Option (List JsString) :=
  (t.readdir (place cwd path)).map fun names => names.map decodeUtf8

/-- What `listSecrets` has of an entry of a namespace. -/
def listSecret (t : Tree) (namespaceDir nspace secretName : JsString) : Option (Option SecretListEntry) :=
  match t.node (place cwd (joinPath namespaceDir secretName)) with
  | none => none
  | some .dir => some none
  | some (.file stat) => some (some ⟨nspace ++ js "/" ++ secretName, stat.mtime⟩)

/-- What `listSecrets` has of an entry of the store. -/
def listNamespace (t : Tree) (nspace : JsString) : Option (List SecretListEntry) :=
  let namespaceDir := joinPath secretsDir nspace
  match t.node (place cwd namespaceDir) with
  | none => none
  | some (.file _) => some []
  | some .dir => do
    let secretNames ← readdirSync cwd t namespaceDir
    let entries ← secretNames.mapM (listSecret cwd t namespaceDir nspace)
    return entries.reduceOption

/-- `listSecrets`. -/
def listSecrets (localeCompare : JsString → JsString → ℤ) (t : Tree) : Option (List SecretListEntry) :=
  if (t.node (place cwd secretsDir)).isNone then some []
  else do
    let namespaces ← readdirSync cwd t secretsDir
    let entries ← namespaces.mapM (listNamespace cwd secretsDir t)
    return sortBy (fun a b => localeCompare a.name b.name) entries.flatten

/-- A call that changes the store. -/
inductive SecretCall where
  | put (name value now : JsString)
  | unset (name : JsString)

/-- What a call does. -/
def SecretCall.run (t : Tree) : SecretCall → Option Tree
  | .put name value now => putSecret cwd secretsDir name value now t
  | .unset name => unsetSecret cwd secretsDir name t

/-- Calls that all succeed. -/
def runCalls (t : Tree) (calls : List SecretCall) : Option Tree := calls.foldlM (SecretCall.run cwd secretsDir) t

end Store

/-! ### What the store is for -/

/-- The secrets: the value last put under a name, and when, unless it was unset since. -/
abbrev Kept := JsString → Option (JsString × JsString)

/-- The secrets after a call. -/
def Kept.after (kept : Kept) : SecretCall → Kept
  | .put name value now => Function.update kept name (some (value, now))
  | .unset name => Function.update kept name none

/-- The secrets after these calls. -/
def keptAfter (calls : List SecretCall) : Kept := calls.foldl Kept.after fun _ => none

/-- The name that a call is about. -/
def SecretCall.name : SecretCall → JsString
  | .put name _ _ => name
  | .unset name => name

/-- A name that normalizes to itself below the store. A file system keeps apart well-formed texts only. -/
structure IsSecretName (name : JsString) : Prop where
  names : ∀ s ∈ split name 47, Normal.IsName s
  wellFormed : ∀ s ∈ split name 47, WellFormed s

/-- The directory of the store is there with nothing in it, or nothing is there. -/
structure Fresh (cwd : List JsString) (secretsDir : JsString) (t : Tree) : Prop where
  root : t.node (place cwd secretsDir) = none ∨ t.node (place cwd secretsDir) = some .dir
  empty : ∀ k, k ≠ [] → t.node (place cwd secretsDir ++ k) = none

/-! ### Names and places -/

/-- Where a name is, below the store. -/
def key (name : JsString) : List (List UInt8) := (split name 47).map utf8

section Names

variable {name name' : JsString} {k : List (List UInt8)}

theorem key_ne_nil (name : JsString) : key name ≠ [] := by
  rw [key, Ne, List.map_eq_nil_iff]
  exact List.splitOn_ne_nil _ _

/-- A secret is below the store. -/
theorem place_secretPath (cwd : List JsString) (secretsDir : JsString) (h : IsSecretName name) :
    place cwd (secretPath secretsDir name) = place cwd secretsDir ++ key name := by
  rw [place, secretPath, resolved_joinPath_names cwd secretsDir h.names, List.map_append]
  rfl

theorem IsSecretName.decode_key (h : IsSecretName name) : (key name).map decodeUtf8 = split name 47 := by
  rw [key, List.map_map]
  exact (List.map_congr_left fun s hs => decodeUtf8_utf8 (h.wellFormed s hs)).trans (List.map_id _)

theorem IsSecretName.key_inj (h : IsSecretName name) (h' : IsSecretName name') (heq : key name = key name') : name = name' := by
  rw [← join_split name 47, ← h.decode_key, heq, h'.decode_key, join_split]

/-- What is above a name is a name. -/
theorem IsSecretName.above (h : IsSecretName name) (hk : k ≠ []) (hpre : k <+: key name) :
    ∃ name', IsSecretName name' ∧ key name' = k := by
  obtain ⟨segments, hsegments, rfl⟩ := List.prefix_map_iff.mp hpre
  have hne : segments ≠ [] := fun hnil => hk (by rw [hnil, List.map_nil])
  have hsplit : split (join segments [47]) 47 = segments :=
    List.splitOn_intercalate 47 (fun s hs => (h.names s (hsegments.subset hs)).2.2.2) hne
  refine ⟨join segments [47], ⟨fun s hs => ?_, fun s hs => ?_⟩, by rw [key, hsplit]⟩
  · exact h.names s (hsegments.subset (hsplit ▸ hs))
  · exact h.wellFormed s (hsegments.subset (hsplit ▸ hs))

/-- A name above another: the other one goes on behind a slash. -/
theorem IsSecretName.above_iff (h : IsSecretName name) (h' : IsSecretName name') :
    key name <+: key name' ∧ key name ≠ key name' ↔ startsWith name' (name ++ js "/") = true := by
  rw [startsWith_iff]
  constructor
  · rintro ⟨hpre, hdiff⟩
    have hsplit := hpre.map decodeUtf8
    rw [h.decode_key, h'.decode_key] at hsplit
    obtain ⟨rest, hrest⟩ := hsplit
    have hsome : rest ≠ [] := by
      rintro rfl
      rw [List.append_nil] at hrest
      exact hdiff (by rw [key, key, hrest])
    refine ⟨join rest [47], ?_⟩
    have hne : split name 47 ≠ [] := List.splitOn_ne_nil _ _
    rw [← join_split name' 47, ← hrest, join_append hne hsome, join_split]
    rfl
  · rintro ⟨rest, rfl⟩
    have hsplit := split_slash_append name rest
    have hkey : key (name ++ js "/" ++ rest) = key name ++ key rest := by rw [key, hsplit, List.map_append]; rfl
    rw [hkey]
    exact ⟨List.prefix_append _ _, fun heq => key_ne_nil rest (List.self_eq_append_right.mp heq)⟩

end Names

/-! ### What the calls do -/

section Calls

variable {cwd : List JsString} {secretsDir name value now : JsString} {t t' : Tree} {kept : Kept}

theorem prefix_dropLast_iff {α : Type} {k p : List α} (hp : p ≠ []) : k <+: p.dropLast ↔ k <+: p ∧ k ≠ p := by
  obtain ⟨init, last, rfl⟩ := (List.eq_nil_or_concat p).resolve_left hp
  rw [List.concat_eq_append, List.dropLast_concat, List.prefix_concat_iff]
  constructor
  · intro h
    refine ⟨.inr h, ?_⟩
    rintro rfl
    exact absurd h.length_le (by simp)
  · rintro ⟨rfl | h, hne⟩
    · exact absurd rfl hne
    · exact h

/-- A secret is put where there is no directory, and there is no file above it. -/
theorem putSecret_spec (hname : IsSecretName name) (h : putSecret cwd secretsDir name value now t = some t') :
    (∀ k, k <+: key name → k ≠ key name → ∀ file, t.node (place cwd secretsDir ++ k) ≠ some (.file file)) ∧
      t.node (place cwd secretsDir ++ key name) ≠ some .dir ∧
      ∀ k, t'.node (place cwd secretsDir ++ k) =
        if k = key name then some (.file ⟨utf8 value, now⟩)
        else if k <+: key name then some .dir
        else t.node (place cwd secretsDir ++ k) := by
  unfold putSecret at h
  dsimp only at h
  rw [place_secretPath cwd secretsDir hname, List.dropLast_append_of_ne_nil (key_ne_nil name)] at h
  obtain ⟨t₁, hmkdir, hwrite⟩ := Option.bind_eq_some_iff.mp h
  have habove : ∀ k, place cwd secretsDir ++ k <+: place cwd secretsDir ++ (key name).dropLast ↔ k <+: key name ∧ k ≠ key name :=
    fun k => (List.prefix_append_right_inj _).trans (prefix_dropLast_iff (key_ne_nil name))
  refine ⟨fun k hk hne file hfile => ?_, fun hdir => ?_, fun k => ?_⟩
  · rw [FileTree.mkdirp_below_file hfile ((habove k).mpr ⟨hk, hne⟩)] at hmkdir
    cases hmkdir
  · have hnode := FileTree.node_mkdirp hmkdir (place cwd secretsDir ++ key name)
    rw [if_neg fun hpre => ((habove _).mp hpre).2 rfl, hdir] at hnode
    rw [FileTree.writeFile, dif_neg fun hok => by simp [FileTree.isDir_iff.mpr hnode] at hok] at hwrite
    cases hwrite
  · rw [FileTree.node_writeFile hwrite, FileTree.node_mkdirp hmkdir]
    by_cases heq : k = key name
    · rw [if_pos (congrArg _ heq), if_pos heq]
    · have habove' := (habove k).trans (and_iff_left heq)
      simp only [List.append_cancel_left_eq, heq, if_false, habove']

/-- Only a file is unset. -/
theorem unsetSecret_spec (hname : IsSecretName name) (h : unsetSecret cwd secretsDir name t = some t') :
    t.node (place cwd secretsDir ++ key name) ≠ some .dir ∧
      ∀ k, t'.node (place cwd secretsDir ++ k) = if key name <+: k then none else t.node (place cwd secretsDir ++ k) := by
  unfold unsetSecret at h
  dsimp only at h
  rw [place_secretPath cwd secretsDir hname] at h
  split at h
  · cases h
  · rename_i hdir
    cases h
    refine ⟨fun hnode => hdir (FileTree.isDir_iff.mpr hnode), fun k => ?_⟩
    rw [FileTree.node_remove (List.append_ne_nil_of_right_ne_nil _ (key_ne_nil name))]
    simp only [List.prefix_append_right_inj]

end Calls

/-! ### Runs -/

/-- What is below the directory of the store after these calls. -/
structure Holds (cwd : List JsString) (secretsDir : JsString) (calls : List SecretCall) (t : Tree) : Prop where
  root : t.node (place cwd secretsDir) = none ∨ t.node (place cwd secretsDir) = some .dir
  /-- A file is a secret. -/
  file : ∀ name, IsSecretName name → ∀ file, t.node (place cwd secretsDir ++ key name) = some (.file file) ↔
    ∃ value now, keptAfter calls name = some (value, now) ∧ file = ⟨utf8 value, now⟩
  /-- A directory is above a name that was set. -/
  dir : ∀ k, k ≠ [] → (t.node (place cwd secretsDir ++ k) = some .dir ↔
    ∃ name value now, .put name value now ∈ calls ∧ k <+: key name ∧ k ≠ key name)
  named : ∀ k, k ≠ [] → t.node (place cwd secretsDir ++ k) ≠ none → ∃ name, IsSecretName name ∧ key name = k

section Runs

variable {cwd : List JsString} {secretsDir name value now : JsString} {calls : List SecretCall} {t t' : Tree}

theorem Fresh.holds (h : Fresh cwd secretsDir t) : Holds cwd secretsDir [] t where
  root := h.root
  file name _ file := by
    rw [h.empty _ (key_ne_nil name)]
    simp [keptAfter]
  dir k hk := by
    rw [h.empty k hk]
    simp
  named k hk hnode := absurd (h.empty k hk) hnode

theorem keptAfter_concat (calls : List SecretCall) (c : SecretCall) :
    keptAfter (calls ++ [c]) = (keptAfter calls).after c := by
  rw [keptAfter, List.foldl_append]
  rfl

theorem Holds.put (h : Holds cwd secretsDir calls t) (hname : IsSecretName name)
    (hput : putSecret cwd secretsDir name value now t = some t') :
    Holds cwd secretsDir (calls ++ [.put name value now]) t' := by
  obtain ⟨hfree, hdir, hnode⟩ := putSecret_spec hname hput
  refine ⟨?_, fun name' hname' file => ?_, fun k hk => ?_, fun k hk hsome => ?_⟩
  · have hroot := hnode []
    rw [List.append_nil, if_neg (key_ne_nil name).symm, if_pos List.nil_prefix] at hroot
    exact .inr hroot
  · rw [hnode, keptAfter_concat]
    by_cases heq : name' = name
    · subst heq
      rw [if_pos rfl]
      simp [Kept.after, eq_comm]
    · have hkey : key name' ≠ key name := fun hkey => heq (hname'.key_inj hname hkey)
      rw [if_neg hkey, Kept.after, Function.update_of_ne heq]
      split_ifs with hpre
      · -- there was no file where the directory is
        refine iff_of_false (by simp) ?_
        rintro ⟨value', now', hkept, rfl⟩
        exact hfree _ hpre hkey _ ((h.file name' hname' _).mpr ⟨value', now', hkept, rfl⟩)
      · exact h.file name' hname' file
  · have hcalls : (∃ name' value' now', .put name' value' now' ∈ calls ++ [.put name value now] ∧ k <+: key name' ∧ k ≠ key name') ↔
        t.node (place cwd secretsDir ++ k) = some .dir ∨ k <+: key name ∧ k ≠ key name := by
      rw [h.dir k hk]
      constructor
      · rintro ⟨name', value', now', hmem, habove⟩
        rcases List.mem_append.mp hmem with hmem | hmem
        · exact .inl ⟨name', value', now', hmem, habove⟩
        · cases List.mem_singleton.mp hmem
          exact .inr habove
      · rintro (⟨name', value', now', hmem, habove⟩ | habove)
        · exact ⟨name', value', now', List.mem_append_left _ hmem, habove⟩
        · exact ⟨name, value, now, List.mem_append_right _ (List.mem_singleton_self _), habove⟩
    rw [hcalls, hnode]
    by_cases heq : k = key name
    · rw [if_pos heq, heq]
      exact iff_of_false (by simp) fun hor => hor.elim hdir fun hne => hne.2 rfl
    · rw [if_neg heq, and_iff_left heq]
      split_ifs with hpre
      · exact iff_of_true rfl (.inr hpre)
      · exact (or_iff_left hpre).symm
  · rw [hnode] at hsome
    by_cases heq : k = key name
    · exact ⟨name, hname, heq.symm⟩
    · rw [if_neg heq] at hsome
      split_ifs at hsome with hpre
      · exact hname.above hk hpre
      · exact h.named k hk hsome

/-- What goes with a name that is unset: nothing is below it. -/
theorem node_below_unset (hdir : t.node (place cwd secretsDir ++ key name) ≠ some .dir) {k : List (List UInt8)}
    (hpre : key name <+: k) (hne : k ≠ key name) : t.node (place cwd secretsDir ++ k) = none := by
  obtain ⟨rest, rfl⟩ := hpre
  by_contra hsome
  rw [← List.append_assoc] at hsome
  refine hdir (FileTree.dir_of_append ?_ hsome)
  rintro rfl
  exact hne (List.append_nil _)

theorem Holds.unset (h : Holds cwd secretsDir calls t) (hname : IsSecretName name)
    (hunset : unsetSecret cwd secretsDir name t = some t') : Holds cwd secretsDir (calls ++ [.unset name]) t' := by
  obtain ⟨hdir, hnode⟩ := unsetSecret_spec hname hunset
  refine ⟨?_, fun name' hname' file => ?_, fun k hk => ?_, fun k hk hsome => ?_⟩
  · have hroot := hnode []
    rw [List.append_nil, if_neg fun hnil => key_ne_nil name (List.prefix_nil.mp hnil)] at hroot
    rw [hroot]
    exact h.root
  · rw [hnode, keptAfter_concat, Kept.after]
    by_cases heq : name' = name
    · subst heq
      rw [if_pos (List.prefix_refl _), Function.update_self]
      simp
    · rw [Function.update_of_ne heq]
      split_ifs with hpre
      · have hkey : key name' ≠ key name := fun hkey => heq (hname'.key_inj hname hkey)
        rw [← h.file name' hname' file, node_below_unset hdir hpre hkey]
        exact iff_of_false not_false (by simp)
      · exact h.file name' hname' file
  · have hcalls : (∃ name' value' now', .put name' value' now' ∈ calls ++ [.unset name] ∧ k <+: key name' ∧ k ≠ key name') ↔
        t.node (place cwd secretsDir ++ k) = some .dir := by
      rw [h.dir k hk]
      simp
    rw [hcalls, hnode]
    split_ifs with hpre
    · by_cases heq : k = key name
      · rw [heq]
        exact iff_of_false (by simp) hdir
      · rw [node_below_unset hdir hpre heq]
        exact iff_of_false not_false (by simp)
    · exact Iff.rfl
  · rw [hnode] at hsome
    split_ifs at hsome with hpre
    · exact absurd rfl hsome
    · exact h.named k hk hsome

/-- **Every run** of calls that succeed keeps the secrets in the files of their names. -/
theorem holds_of_run {t₀ : Tree} (hfresh : Fresh cwd secretsDir t₀) (hnames : ∀ c ∈ calls, IsSecretName c.name)
    (hrun : runCalls cwd secretsDir t₀ calls = some t) : Holds cwd secretsDir calls t := by
  induction calls using List.reverseRecOn generalizing t with
  | nil =>
    cases hrun
    exact hfresh.holds
  | append_singleton calls c ih =>
    rw [runCalls, List.foldlM_append] at hrun
    obtain ⟨t₁, hbefore, hlast⟩ := Option.bind_eq_some_iff.mp hrun
    have hholds := ih (fun c hc => hnames c (List.mem_append_left _ hc)) hbefore
    have hname := hnames c (List.mem_append_right _ (List.mem_singleton_self _))
    rw [List.foldlM_cons] at hlast
    obtain ⟨t₂, hstep, hnil⟩ := Option.bind_eq_some_iff.mp hlast
    cases hnil
    cases c with
    | put name value now => exact hholds.put hname hstep
    | unset name => exact hholds.unset hname hstep

end Runs

/-! ### The listing -/

section Listing

variable {cwd : List JsString} {secretsDir path nspace : JsString} {calls : List SecretCall} {t : Tree} {k : List (List UInt8)}

theorem mapM_eq_some {α β : Type} {f : α → Option β} {g : α → β} {xs : List α} (h : ∀ x ∈ xs, f x = some (g x)) :
    xs.mapM f = some (xs.map g) := by
  induction xs with
  | nil => rfl
  | cons x xs ih =>
    rw [List.forall_mem_cons] at h
    rw [List.mapM_cons, h.1, ih h.2]
    rfl

/-- A segment of a name. -/
def IsSegment (s : JsString) : Prop := Normal.IsName s ∧ WellFormed s

theorem IsSecretName.segment (h : IsSecretName name) {s : JsString} (hs : s ∈ split name 47) : IsSegment s :=
  ⟨h.names s hs, h.wellFormed s hs⟩

/-- An entry of a directory has the name of a segment. -/
theorem Holds.exists_segment (h : Holds cwd secretsDir calls t) {e : List UInt8}
    (he : e ∈ t.entries (place cwd secretsDir ++ k)) : ∃ s, IsSegment s ∧ utf8 s = e := by
  have hnode := FileTree.mem_entries.mp he
  rw [List.append_assoc] at hnode
  obtain ⟨name, hname, hkey⟩ := h.named _ (by simp) hnode
  have hmem : e ∈ key name := hkey ▸ List.mem_append_right _ (List.mem_singleton_self _)
  obtain ⟨s, hs, rfl⟩ := List.mem_map.mp hmem
  exact ⟨s, hname.segment hs, rfl⟩

/-- What is in a directory. -/
theorem Holds.readdirSync (h : Holds cwd secretsDir calls t) (hplace : place cwd path = place cwd secretsDir ++ k)
    (hdir : t.node (place cwd secretsDir ++ k) = some .dir) :
    ∃ names, readdirSync cwd t path = some names ∧ names.Nodup ∧
      ∀ s, s ∈ names ↔ IsSegment s ∧ t.node (place cwd secretsDir ++ k ++ [utf8 s]) ≠ none := by
  refine ⟨(t.entries (place cwd secretsDir ++ k)).map decodeUtf8, ?_, ?_, fun s => ?_⟩
  · rw [Secrets.readdirSync, hplace, FileTree.readdir, if_pos (FileTree.isDir_iff.mpr hdir)]
    rfl
  · refine (t.nodup_entries _).map_on fun e he e' he' heq => ?_
    obtain ⟨s, hs, rfl⟩ := h.exists_segment he
    obtain ⟨s', hs', rfl⟩ := h.exists_segment he'
    rw [decodeUtf8_utf8 hs.2, decodeUtf8_utf8 hs'.2] at heq
    rw [heq]
  · rw [List.mem_map]
    constructor
    · rintro ⟨e, he, rfl⟩
      obtain ⟨s, hs, rfl⟩ := h.exists_segment he
      rw [decodeUtf8_utf8 hs.2]
      exact ⟨hs, FileTree.mem_entries.mp he⟩
    · rintro ⟨hs, hnode⟩
      exact ⟨utf8 s, FileTree.mem_entries.mpr hnode, decodeUtf8_utf8 hs.2⟩

theorem place_joinPath (dir : JsString) {s : JsString} (hs : IsSegment s) :
    place cwd (joinPath dir s) = place cwd dir ++ [utf8 s] := by
  rw [place, resolved_joinPath cwd dir hs.1, List.map_append]
  rfl

/-- The secret of two segments. -/
theorem split_pair {s : JsString} (hn : IsSegment nspace) (hs : IsSegment s) :
    split (nspace ++ js "/" ++ s) 47 = [nspace, s] := by
  rw [split_slash_append, split_of_not_mem hn.1.2.2.2, split_of_not_mem hs.1.2.2.2]
  rfl

theorem isSecretName_pair {s : JsString} (hn : IsSegment nspace) (hs : IsSegment s) : IsSecretName (nspace ++ js "/" ++ s) := by
  have hsplit := split_pair hn hs
  refine ⟨fun r hr => ?_, fun r hr => ?_⟩
  · rw [hsplit] at hr
    rcases List.mem_pair.mp hr with rfl | rfl
    · exact hn.1
    · exact hs.1
  · rw [hsplit] at hr
    rcases List.mem_pair.mp hr with rfl | rfl
    · exact hn.2
    · exact hs.2

theorem key_pair {s : JsString} (hn : IsSegment nspace) (hs : IsSegment s) :
    key (nspace ++ js "/" ++ s) = [utf8 nspace, utf8 s] := by
  rw [key, split_pair hn hs]
  rfl

theorem pair_inj {s nspace' s' : JsString} (hn : IsSegment nspace) (hs : IsSegment s) (hn' : IsSegment nspace')
    (hs' : IsSegment s') (h : nspace ++ js "/" ++ s = nspace' ++ js "/" ++ s') : nspace = nspace' ∧ s = s' := by
  have hsplit : split (nspace ++ js "/" ++ s) 47 = split (nspace' ++ js "/" ++ s') 47 := by rw [h]
  rw [split_pair hn hs, split_pair hn' hs', List.cons.injEq, List.cons.injEq] at hsplit
  exact ⟨hsplit.1, hsplit.2.1⟩

/-- The file of a secret of two segments. -/
theorem Holds.file_pair (h : Holds cwd secretsDir calls t) {s : JsString} (hn : IsSegment nspace) (hs : IsSegment s) (file : SecretFile) :
    t.node (place cwd secretsDir ++ [utf8 nspace] ++ [utf8 s]) = some (.file file) ↔
      ∃ value now, keptAfter calls (nspace ++ js "/" ++ s) = some (value, now) ∧ file = ⟨utf8 value, now⟩ := by
  rw [← h.file _ (isSecretName_pair hn hs) file, key_pair hn hs, List.append_assoc]
  rfl

/-- What is in an entry of a namespace for the listing. -/
def listedSecret (cwd : List JsString) (secretsDir : JsString) (t : Tree) (nspace s : JsString) : Option SecretListEntry :=
  match t.node (place cwd secretsDir ++ [utf8 nspace] ++ [utf8 s]) with
  | some (.file stat) => some ⟨nspace ++ js "/" ++ s, stat.mtime⟩
  | _ => none

theorem listedSecret_iff {s : JsString} {e : SecretListEntry} : listedSecret cwd secretsDir t nspace s = some e ↔
    ∃ file, t.node (place cwd secretsDir ++ [utf8 nspace] ++ [utf8 s]) = some (.file file) ∧ ⟨nspace ++ js "/" ++ s, file.mtime⟩ = e := by
  unfold listedSecret
  split
  · rename_i stat hnode
    rw [hnode, Option.some.injEq]
    exact ⟨fun he => ⟨stat, rfl, he⟩, fun ⟨file, hfile, he⟩ => by cases hfile; exact he⟩
  · rename_i hnode
    exact iff_of_false (by simp) fun ⟨file, hfile, _⟩ => hnode file hfile

/-- The secrets of a namespace. -/
theorem Holds.listNamespace (h : Holds cwd secretsDir calls t) (hn : IsSegment nspace)
    (hnode : t.node (place cwd secretsDir ++ [utf8 nspace]) ≠ none) :
    ∃ entries, listNamespace cwd secretsDir t nspace = some entries ∧ (entries.map (·.name)).Nodup ∧
      ∀ e, e ∈ entries ↔ ∃ s value, IsSegment s ∧ e.name = nspace ++ js "/" ++ s ∧ keptAfter calls e.name = some (value, e.lastRotated) := by
  have hplace : place cwd (joinPath secretsDir nspace) = place cwd secretsDir ++ [utf8 nspace] := place_joinPath secretsDir hn
  unfold Secrets.listNamespace
  dsimp only
  rw [hplace]
  cases hentry : t.node (place cwd secretsDir ++ [utf8 nspace]) with
  | none => exact absurd hentry hnode
  | some node =>
    cases node with
    | file stat =>
      refine ⟨[], rfl, List.nodup_nil, fun e => iff_of_false List.not_mem_nil ?_⟩
      rintro ⟨s, value, hs, hname, hkept⟩
      have hfile := (h.file_pair hn hs ⟨utf8 value, e.lastRotated⟩).mpr ⟨value, e.lastRotated, hname ▸ hkept, rfl⟩
      have hdir := t.closed _ _ (by rw [hfile]; simp)
      rw [hentry] at hdir
      cases hdir
    | dir =>
      obtain ⟨names, hnames, hnodup, hmem⟩ := h.readdirSync hplace hentry
      have hall : ∀ s ∈ names, listSecret cwd t (joinPath secretsDir nspace) nspace s = some (listedSecret cwd secretsDir t nspace s) := by
        intro s hs
        obtain ⟨hsegment, hsome⟩ := (hmem s).mp hs
        unfold listSecret listedSecret
        rw [place_joinPath _ hsegment, hplace]
        split <;> simp_all
      refine ⟨names.filterMap (listedSecret cwd secretsDir t nspace), ?_, ?_, fun e => ?_⟩
      · show (Secrets.readdirSync cwd t (joinPath secretsDir nspace)).bind _ = _
        rw [hnames]
        show Option.bind (names.mapM (listSecret cwd t (joinPath secretsDir nspace) nspace)) _ = _
        rw [mapM_eq_some hall]
        show some (List.filterMap id _) = _
        rw [List.filterMap_map]
        rfl
      · rw [List.map_filterMap]
        refine hnodup.filterMap fun s s' name hs hs' => ?_
        obtain ⟨e, he, rfl⟩ := Option.map_eq_some_iff.mp hs
        obtain ⟨e', he', hname⟩ := Option.map_eq_some_iff.mp hs'
        obtain ⟨file, -, rfl⟩ := listedSecret_iff.mp he
        obtain ⟨file', -, rfl⟩ := listedSecret_iff.mp he'
        exact (List.append_cancel_left hname).symm
      · rw [List.mem_filterMap]
        constructor
        · rintro ⟨s, hs, he⟩
          obtain ⟨file, hfile, rfl⟩ := listedSecret_iff.mp he
          obtain ⟨value, now, hkept, rfl⟩ := (h.file_pair hn ((hmem s).mp hs).1 file).mp hfile
          exact ⟨s, value, ((hmem s).mp hs).1, rfl, hkept⟩
        · rintro ⟨s, value, hs, hname, hkept⟩
          have hfile := (h.file_pair hn hs ⟨utf8 value, e.lastRotated⟩).mpr ⟨value, e.lastRotated, hname ▸ hkept, rfl⟩
          refine ⟨s, (hmem s).mpr ⟨hs, by rw [hfile]; simp⟩, listedSecret_iff.mpr ⟨_, hfile, ?_⟩⟩
          rw [← hname]

/-- **The listing** has the secrets of two segments, each once. -/
theorem Holds.listSecrets (h : Holds cwd secretsDir calls t) (localeCompare : JsString → JsString → ℤ) :
    ∃ entries, listSecrets cwd secretsDir localeCompare t = some entries ∧ (entries.map (·.name)).Nodup ∧
      ∀ e, e ∈ entries ↔ ∃ nspace s value, IsSegment nspace ∧ IsSegment s ∧ e.name = nspace ++ js "/" ++ s ∧
        keptAfter calls e.name = some (value, e.lastRotated) := by
  unfold Secrets.listSecrets
  rcases h.root with hroot | hroot
  · -- there is no directory, so that nothing is kept
    refine ⟨[], by rw [hroot]; rfl, List.nodup_nil, fun e => iff_of_false List.not_mem_nil ?_⟩
    rintro ⟨nspace, s, value, hn, hs, hname, hkept⟩
    have hfile := (h.file_pair hn hs ⟨utf8 value, e.lastRotated⟩).mpr ⟨value, e.lastRotated, hname ▸ hkept, rfl⟩
    rw [List.append_assoc] at hfile
    have hne : [utf8 nspace] ++ [utf8 s] ≠ [] := by simp
    have hdir := FileTree.dir_of_append hne (by rw [hfile]; simp)
    rw [hroot] at hdir
    cases hdir
  · obtain ⟨names, hnames, hnodup, hmem⟩ := h.readdirSync (k := [])
      (show place cwd secretsDir = place cwd secretsDir ++ [] from (List.append_nil _).symm) (by rwa [List.append_nil])
    rw [List.append_nil] at hmem
    -- what is listed of each namespace
    let listed : JsString → List SecretListEntry := fun ns => (Secrets.listNamespace cwd secretsDir t ns).getD []
    have hlisted : ∀ ns ∈ names, Secrets.listNamespace cwd secretsDir t ns = some (listed ns) ∧ ((listed ns).map (·.name)).Nodup ∧
        ∀ e, e ∈ listed ns ↔ ∃ s value, IsSegment s ∧ e.name = ns ++ js "/" ++ s ∧
          keptAfter calls e.name = some (value, e.lastRotated) := by
      intro ns hns
      obtain ⟨entries, hentries, hspec⟩ := h.listNamespace ((hmem ns).mp hns).1 ((hmem ns).mp hns).2
      have heq : listed ns = entries := by simp only [listed, hentries, Option.getD_some]
      rw [heq]
      exact ⟨hentries, hspec⟩
    have hcombined : ((names.flatMap listed).map (·.name)).Nodup := by
      rw [List.map_flatMap, List.nodup_flatMap]
      refine ⟨fun ns hns => (hlisted ns hns).2.1, hnodup.imp_of_mem fun {ns ns'} hns hns' hne => ?_⟩
      intro name hname hname'
      obtain ⟨e, he, rfl⟩ := List.mem_map.mp hname
      obtain ⟨e', he', hsame⟩ := List.mem_map.mp hname'
      obtain ⟨s, -, hs, hpair, -⟩ := ((hlisted ns hns).2.2 e).mp he
      obtain ⟨s', -, hs', hpair', -⟩ := ((hlisted ns' hns').2.2 e').mp he'
      exact hne (pair_inj ((hmem ns).mp hns).1 hs ((hmem ns').mp hns').1 hs' (hpair.symm.trans (hsame.symm.trans hpair'))).1
    refine ⟨sortBy (fun a b => localeCompare a.name b.name) (names.flatMap listed), ?_, ?_, fun e => ?_⟩
    · rw [if_neg (by rw [hroot]; simp), hnames]
      show Option.bind (names.mapM (Secrets.listNamespace cwd secretsDir t)) _ = _
      rw [mapM_eq_some fun ns hns => (hlisted ns hns).1]
      rfl
    · exact (((sortBy_perm _ _).map _).nodup_iff).mpr hcombined
    · rw [(sortBy_perm _ _).mem_iff, List.mem_flatMap]
      constructor
      · rintro ⟨ns, hns, he⟩
        obtain ⟨s, value, hspec⟩ := ((hlisted ns hns).2.2 e).mp he
        exact ⟨ns, s, value, ((hmem ns).mp hns).1, hspec⟩
      · rintro ⟨ns, s, value, hn, hs, hname, hkept⟩
        have hfile := (h.file_pair hn hs ⟨utf8 value, e.lastRotated⟩).mpr ⟨value, e.lastRotated, hname ▸ hkept, rfl⟩
        have hdir := t.closed _ _ (by rw [hfile]; simp)
        have hns := (hmem ns).mpr ⟨hn, by rw [hdir]; simp⟩
        exact ⟨ns, hns, ((hlisted ns hns).2.2 e).mpr ⟨s, value, hs, hname, hkept⟩⟩

end Listing

/-! ### The three operations -/

section Complete

variable {cwd : List JsString} {secretsDir name : JsString} {calls : List SecretCall} {t₀ t : Tree}

/-- A text is read back as it was written when it is well-formed. -/
theorem decodeUtf8_utf8_iff {s : JsString} : decodeUtf8 (utf8 s) = s ↔ WellFormed s := by
  refine ⟨fun h => ⟨decode s, ?_⟩, decodeUtf8_utf8⟩
  have hbytes : utf8 s = utf8 (encode (decode s)) := (utf8_encode (decode s)).symm
  rw [hbytes, decodeUtf8_utf8 ⟨_, rfl⟩] at h
  exact h.symm

/-- Reading a name: a directory fails, a file has the text that its bytes are. -/
theorem Holds.getSecret_iff (h : Holds cwd secretsDir calls t) (hname : IsSecretName name) :
    getSecret cwd secretsDir name t = some ((keptAfter calls name).map (·.1)) ↔
      t.node (place cwd secretsDir ++ key name) ≠ some .dir ∧
        ∀ value now, keptAfter calls name = some (value, now) → WellFormed value := by
  unfold getSecret
  dsimp only
  rw [place_secretPath cwd secretsDir hname]
  cases hnode : t.node (place cwd secretsDir ++ key name) with
  | none =>
    have hkept : keptAfter calls name = none := by
      by_contra hsome
      obtain ⟨⟨value, now⟩, hkept⟩ := Option.ne_none_iff_exists'.mp hsome
      have hfile := (h.file name hname _).mpr ⟨value, now, hkept, rfl⟩
      rw [hnode] at hfile
      cases hfile
    rw [hkept]
    exact iff_of_true rfl ⟨by simp, by simp⟩
  | some node =>
    cases node with
    | dir =>
      have hread : t.readFile (place cwd secretsDir ++ key name) = none := by rw [FileTree.readFile, hnode]
      rw [if_neg (by simp), hread]
      exact iff_of_false (by simp) fun hor => hor.1 rfl
    | file file =>
      obtain ⟨value, now, hkept, rfl⟩ := (h.file name hname file).mp hnode
      rw [if_neg (by simp), FileTree.readFile_iff.mpr hnode, hkept, Option.map_some, Option.map_some, Option.some.injEq,
        Option.some.injEq, decodeUtf8_utf8_iff]
      refine ⟨fun hvalue => ⟨by simp, fun value' now' heq => ?_⟩, fun h => h.2 value now rfl⟩
      cases heq
      exact hvalue

/-- Only names of calls are kept. -/
theorem exists_call_of_kept (h : (keptAfter calls name).isSome) : ∃ c ∈ calls, c.name = name := by
  induction calls using List.reverseRecOn with
  | nil => cases h
  | append_singleton calls c ih =>
    rw [keptAfter_concat] at h
    by_cases heq : name = c.name
    · exact ⟨c, by simp, heq.symm⟩
    · have hbefore : (keptAfter calls).after c name = keptAfter calls name := by
        cases c <;> exact Function.update_of_ne heq _ _
      rw [hbefore] at h
      obtain ⟨c', hc', hname⟩ := ih h
      exact ⟨c', List.mem_append_left _ hc', hname⟩

/-- The names of two segments. -/
theorem IsSecretName.exists_pair (h : IsSecretName name) (hlength : (split name 47).length = 2) :
    ∃ nspace s, IsSegment nspace ∧ IsSegment s ∧ name = nspace ++ js "/" ++ s := by
  obtain ⟨nspace, s, hsplit⟩ := List.length_eq_two.mp hlength
  refine ⟨nspace, s, h.segment (by simp [hsplit]), h.segment (by simp [hsplit]), ?_⟩
  have hjoin : join [nspace, s] [47] = nspace ++ [47] ++ s := by simp [join, List.intercalate]
  rw [← join_split name 47, hsplit, hjoin]
  rfl

/-- **The secrets after a run of calls that succeed.** The listing has exactly the names that were put and not unset since, each
once, and the name is read as it was last put, exactly when every name that is left has two segments, no name that was ever put
goes on below this one, and the value of this one is well-formed. -/
theorem secrets_complete_iff (hfresh : Fresh cwd secretsDir t₀) (hnames : ∀ c ∈ calls, IsSecretName c.name)
    (hrun : runCalls cwd secretsDir t₀ calls = some t) (hname : IsSecretName name) (localeCompare : JsString → JsString → ℤ) :
    ((∃ entries, listSecrets cwd secretsDir localeCompare t = some entries ∧ (entries.map (·.name)).Nodup ∧
        ∀ n, n ∈ entries.map (·.name) ↔ (keptAfter calls n).isSome) ∧
      getSecret cwd secretsDir name t = some ((keptAfter calls name).map (·.1))) ↔
    (∀ n, (keptAfter calls n).isSome → (split n 47).length = 2) ∧
      (∀ n value now, .put n value now ∈ calls → startsWith n (name ++ js "/") = false) ∧
      ∀ value now, keptAfter calls name = some (value, now) → WellFormed value := by
  have hholds := holds_of_run hfresh hnames hrun
  obtain ⟨entries, hlist, hnodup, hmem⟩ := hholds.listSecrets localeCompare
  have hlisted : ∀ n, n ∈ entries.map (·.name) ↔ (keptAfter calls n).isSome ∧ (split n 47).length = 2 := by
    intro n
    rw [List.mem_map]
    constructor
    · rintro ⟨e, he, rfl⟩
      obtain ⟨nspace, s, value, hn, hs, hpair, hkept⟩ := (hmem e).mp he
      exact ⟨by rw [hkept]; rfl, by rw [hpair, split_pair hn hs]; rfl⟩
    · rintro ⟨hsome, hlength⟩
      obtain ⟨c, hc, rfl⟩ := exists_call_of_kept hsome
      obtain ⟨nspace, s, hn, hs, hpair⟩ := (hnames c hc).exists_pair hlength
      obtain ⟨⟨value, now⟩, hkept⟩ := Option.isSome_iff_exists.mp hsome
      exact ⟨⟨c.name, now⟩, (hmem _).mpr ⟨nspace, s, value, hn, hs, hpair, hkept⟩, rfl⟩
  have hdir : t.node (place cwd secretsDir ++ key name) ≠ some .dir ↔
      ∀ n value now, .put n value now ∈ calls → startsWith n (name ++ js "/") = false := by
    rw [Ne, hholds.dir _ (key_ne_nil name)]
    constructor
    · intro hnot n value now hput
      refine Bool.eq_false_of_not_eq_true fun habove => hnot ⟨n, value, now, hput, ?_⟩
      exact (hname.above_iff (hnames _ hput)).mpr habove
    · rintro hall ⟨n, value, now, hput, habove⟩
      have hbelow : startsWith n (name ++ js "/") = true := (hname.above_iff (hnames _ hput)).mp habove
      rw [hall n value now hput] at hbelow
      cases hbelow
  rw [hholds.getSecret_iff hname, hdir]
  refine and_congr_left' ?_
  constructor
  · rintro ⟨entries', hlist', -, hexact⟩ n hsome
    rw [hlist] at hlist'
    cases hlist'
    exact ((hlisted n).mp ((hexact n).mpr hsome)).2
  · intro hall
    exact ⟨entries, hlist, hnodup, fun n => (hlisted n).trans (and_iff_left_of_imp (hall n))⟩

end Complete

/-! ### A secret of three segments -/

/-- A fresh file system. -/
theorem fresh_empty : Fresh [] (js "/secrets") .empty := by
  have hplace : place [] (js "/secrets") = [utf8 (js "secrets")] := by decide
  refine ⟨.inl ?_, fun k hk => ?_⟩
  · rw [hplace]
    rfl
  · rw [hplace]
    rfl

theorem isSecretName_of_split {name : JsString} (parts : List String) (hsplit : split name 47 = parts.map js)
    (hparts : ∀ p ∈ parts, js p ≠ [] ∧ js p ≠ js "." ∧ js p ≠ js ".." ∧ (47 : UInt16) ∉ js p) : IsSecretName name := by
  refine ⟨fun s hs => ?_, fun s hs => ?_⟩
  · rw [hsplit] at hs
    obtain ⟨p, hp, rfl⟩ := List.mem_map.mp hs
    exact hparts p hp
  · rw [hsplit] at hs
    obtain ⟨p, -, rfl⟩ := List.mem_map.mp hs
    exact wellFormed_js p

/-- A call of a rotation. -/
def putAt (name value : String) : SecretCall := .put (js name) (js value) (js "2026-01-01T00:00:00.000Z")

/-- An account key is put and rotated; of the two other secrets one is unset. -/
def rotation : List SecretCall :=
  [putAt "acme/key" "old", putAt "dns-namecheap/token" "k-1", putAt "acme/key" "pem", .unset (js "dns-namecheap/token"),
    putAt "core/session" "s-1"]

theorem kept_rotation (n : JsString) : keptAfter rotation n =
    if n = js "core/session" then some (js "s-1", js "2026-01-01T00:00:00.000Z")
    else if n = js "acme/key" then some (js "pem", js "2026-01-01T00:00:00.000Z") else none := by
  have hne : js "acme/key" ≠ js "dns-namecheap/token" := by decide
  have hother : ∀ n, keptAfter rotation n =
      if n = js "core/session" then some (js "s-1", js "2026-01-01T00:00:00.000Z")
      else if n = js "dns-namecheap/token" then none
      else if n = js "acme/key" then some (js "pem", js "2026-01-01T00:00:00.000Z") else none := by
    intro n
    simp only [rotation, putAt, keptAfter, List.foldl_cons, List.foldl_nil, Kept.after, Function.update_apply]
    split_ifs <;> rfl
  rw [hother]
  refine if_congr Iff.rfl rfl ?_
  by_cases hn : n = js "dns-namecheap/token"
  · rw [if_pos hn, hn, if_neg hne.symm]
  · rw [if_neg hn]

theorem names_rotation : ∀ c ∈ rotation, (split c.name 47).length = 2 ∧ IsSecretName c.name := by
  have hkey : IsSecretName (js "acme/key") := isSecretName_of_split ["acme", "key"] (by decide) (by decide)
  have htoken : IsSecretName (js "dns-namecheap/token") :=
    isSecretName_of_split ["dns-namecheap", "token"] (by decide) (by decide)
  have hsession : IsSecretName (js "core/session") := isSecretName_of_split ["core", "session"] (by decide) (by decide)
  simp only [rotation, List.forall_mem_cons, List.not_mem_nil, false_imp_iff, implies_true, and_true]
  refine ⟨⟨?_, hkey⟩, ⟨?_, htoken⟩, ⟨?_, hkey⟩, ⟨?_, htoken⟩, ?_, hsession⟩
  all_goals decide

/-- The two secrets that are left are listed, and the account key is read as it was put last. -/
theorem secrets_complete_iff_account : ∃ t, runCalls [] (js "/secrets") .empty rotation = some t ∧
    (∃ entries, listSecrets [] (js "/secrets") compareOrder t = some entries ∧
      ∀ n, n ∈ entries.map (·.name) ↔ n = js "acme/key" ∨ n = js "core/session") ∧
    getSecret [] (js "/secrets") (js "acme/key") t = some (some (js "pem")) := by
  obtain ⟨t, hrun⟩ := Option.isSome_iff_exists.mp
    (show (runCalls [] (js "/secrets") .empty rotation).isSome = true by decide +kernel)
  have hkey : keptAfter rotation (js "acme/key") = some (js "pem", js "2026-01-01T00:00:00.000Z") := by
    rw [kept_rotation, if_neg (by decide), if_pos rfl]
  have hname : IsSecretName (js "acme/key") := (names_rotation (putAt "acme/key" "pem") (by simp [rotation])).2
  have hcondition : (∀ n, (keptAfter rotation n).isSome → (split n 47).length = 2) ∧
      (∀ n value now, .put n value now ∈ rotation → startsWith n (js "acme/key" ++ js "/") = false) ∧
      ∀ value now, keptAfter rotation (js "acme/key") = some (value, now) → WellFormed value := by
    refine ⟨fun n hsome => ?_, fun n value now hput => ?_, fun value now hvalue => ?_⟩
    · obtain ⟨c, hc, rfl⟩ := exists_call_of_kept hsome
      exact (names_rotation c hc).1
    · simp only [rotation, putAt, List.mem_cons, SecretCall.put.injEq, reduceCtorEq, List.not_mem_nil, or_false,
        false_or] at hput
      rcases hput with ⟨rfl, -⟩ | ⟨rfl, -⟩ | ⟨rfl, -⟩ | ⟨rfl, -⟩
      all_goals decide
    · rw [hkey] at hvalue
      cases hvalue
      exact wellFormed_js "pem"
  obtain ⟨⟨entries, hlist, -, hexact⟩, hread⟩ :=
    (secrets_complete_iff fresh_empty (fun c hc => (names_rotation c hc).2) hrun hname compareOrder).mpr hcondition
  refine ⟨t, hrun, ⟨entries, hlist, fun n => ?_⟩, hread.trans (by rw [hkey]; rfl)⟩
  rw [hexact, kept_rotation]
  split_ifs with hsession hkey'
  · simp [hsession]
  · simp [hkey']
  · simp [hsession, hkey']

/-- A secret of three segments is read and not listed. -/
theorem secrets_unlisted :
    IsSecretName (js "dns-namecheap/api/key") ∧
    keptAfter [putAt "dns-namecheap/api/key" "k-1"] (js "dns-namecheap/api/key") =
      some (js "k-1", js "2026-01-01T00:00:00.000Z") ∧
    ∃ t, runCalls [] (js "/secrets") .empty [putAt "dns-namecheap/api/key" "k-1"] = some t ∧
      getSecret [] (js "/secrets") (js "dns-namecheap/api/key") t = some (some (js "k-1")) ∧
      listSecrets [] (js "/secrets") compareOrder t = some [] := by
  refine ⟨isSecretName_of_split ["dns-namecheap", "api", "key"] (by decide) (by decide), rfl, ?_⟩
  refine ⟨_, rfl, ?_, ?_⟩
  · decide
  · decide

end Wanfw.Orchestrator.Secrets
