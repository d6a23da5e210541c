import Wanfw.Orchestrator.CertRuns
import Wanfw.Orchestrator.HostApi
import Wanfw.Orchestrator.SecretsStore

/-!
# Where the stores keep what plugins name

`secrets.get`, `secrets.put` and `certs.store` take a name from the plugin and join it to the directory of the store.
For secrets `matchNamePrefix` has compared the text of the name with the patterns of the grants before; `join` resolves
the `..` in it afterwards. For certificates any grant of `certs.store` will do.

`stores_contained_iff` says for which names the files stay where the patterns and the directory of the certificates want
them: for those whose path does not climb out of the directory that it starts from, or comes back to it.
-/

namespace Wanfw.Orchestrator.Containment

open Wanfw.Js Wanfw.Store Certs

/-! ### Names and places -/

/-- `secretsDir` of `resolvePaths`. -/
def secretsDir (dataRoot : JsString) : JsString := dataRoot ++ js "/secrets"

/-- `certsDir` of `resolvePaths`. -/
def certsDir (dataRoot : JsString) : JsString := dataRoot ++ js "/certs"

/-- A grant has a pattern that covers a name. -/
def Covers (grants : List Grant) (cap : String) (pattern name : JsString) : Prop :=
  ∃ g ∈ grants, g.cap = js cap ∧ ∃ patterns, scopeField g.scope (js "names") = .ok (.arr patterns) ∧
    .str pattern ∈ patterns ∧ matchNamePattern pattern name = true

/-- The directory of a pattern `…/*`. -/
def stem (pattern : JsString) : JsString := pattern.take (pattern.length - 2)

section Places

variable (cwd : List JsString) (dataRoot : JsString)

/-- The directory of the secrets. -/
def secretsRoot : List JsString := resolved cwd (secretsDir dataRoot)

/-- The directory of the certificates. -/
def certsRoot : List JsString := resolved cwd (certsDir dataRoot)

/-- The path that `getSecret` reads and `putSecret` writes. -/
def secretPath (name : JsString) : JsString := Secrets.secretPath (secretsDir dataRoot) name

/-- The directory that a pattern `…/*` names. -/
def patternDir (pattern : JsString) : List JsString := resolved cwd (joinPath (secretsDir dataRoot) (stem pattern))

/-- What a pattern other than `*` names: the files below a directory, or one file. -/
def Names (pattern : JsString) (file : List JsString) : Prop :=
  if endsWith pattern (js "/*") then Under (patternDir cwd dataRoot pattern) file
  else file = resolved cwd (joinPath (secretsDir dataRoot) pattern)

/-- The file system has no file of this path: there is a NUL in it, or a slash at its end. -/
def NoFile (path : JsString) : Prop := ¬ Plain (resolved cwd path) ∨ endsWith path (js "/") = true

/-- The file of a secret is below the directory of the secrets, and the pattern names it. -/
def SecretContained (pattern name : JsString) : Prop :=
  NoFile cwd (secretPath dataRoot name) ∨ Under (secretsRoot cwd dataRoot) (resolved cwd (secretPath dataRoot name)) ∧
    Names cwd dataRoot pattern (resolved cwd (secretPath dataRoot name))

/-- Whatever process stores whatever certificate under the name, over whatever files: nothing changes outside the
directory of the certificates, at no time. -/
def CertContained (name : JsString) : Prop :=
  ∀ (P : Process) (tree : Tree), tree.node (certsRoot cwd dataRoot) = some .dir → ∀ certPem keyPem certMeta,
    ∀ t ∈ (storeCert P (certsDir dataRoot) (some (.str name)) certPem keyPem certMeta { cwd, tree }).2.log,
      ∀ p, ¬ Under (certsRoot cwd dataRoot) p → t.node p = tree.node p

/-- What the stores promise for a name that a plugin with these grants sends. -/
structure Contained (grants : List Grant) (name : JsString) : Prop where
  secrets : ∀ cap ∈ ["secrets.read", "secrets.write"], ∀ pattern, Covers grants cap pattern name → pattern ≠ js "*" →
    SecretContained cwd dataRoot pattern name
  certs : hasGrant grants (js "certs.store") (fun _ => .ok true) = .ok true → CertContained cwd dataRoot name

end Places

/-! ### The handlers -/

section Handlers

variable {ρ : Type} {deps : HostDeps ρ} {s : HostState ρ} {pluginId args : Value} {grants : List Grant} {name : JsString}

theorem deny_ne_ok {α : Type} {parts : List (JsString × Value)} {last : JsString} {a : α} {s : HostState ρ} :
    (deny parts last s).1 ≠ .ok a := by
  intro h
  obtain ⟨text, -, h⟩ := Act.bind_ok.mp h
  cases h

/-- A name that `matchNamePrefix` lets pass is covered by a pattern. -/
theorem exists_covers {cap : String} (h : hasGrant grants (js cap) (fun scope => do
    matchNamePrefixValue (← scopeField scope (js "names")) (some (.str name))) = .ok true) :
    ∃ pattern, Covers grants cap pattern name := by
  obtain ⟨g, hg, hcap, hscope⟩ := hasGrant_ok_true h
  obtain ⟨field, hfield, hmatch⟩ := except_bind_ok.mp hscope
  obtain ⟨patterns, hpatterns, hsome⟩ := except_bind_ok.mp hmatch
  cases field with
  | arr xs =>
    cases hpatterns
    obtain ⟨p, hp, hpattern⟩ := someE_ok_true hsome
    obtain ⟨pattern, htext, hname⟩ := except_bind_ok.mp hpattern
    cases p with
    | str p =>
      cases htext
      refine ⟨pattern, g, hg, hcap, _, hfield, hp, ?_⟩
      unfold matchNamePattern
      split at hname
      · rename_i hends
        rw [if_pos hends]
        exact Except.ok.inj hname
      · rename_i hends
        rw [if_neg hends, BEq.comm (a := pattern) (b := name)]
        exact Except.ok.inj hname
    | _ => cases htext
  | _ => cases hpatterns

/-- What a handler asks of the grants of a plugin. -/
theorem covers_of_requireCap {cap : String} (h : (requireCap deps pluginId cap (fun scope => do
    matchNamePrefixValue (← scopeField scope (js "names")) (some (.str name))) s).1 = .ok true) :
    ∃ grants pattern, (decodedGrants deps pluginId s).1 = .ok grants ∧ Covers grants cap pattern name := by
  obtain ⟨grants, hgrants, hcheck⟩ := Act.bind_ok.mp h
  obtain ⟨pattern, hcovers⟩ := exists_covers hcheck
  exact ⟨grants, pattern, hgrants, hcovers⟩

/-- **A plugin gets a secret** under a name that its grants cover. -/
theorem covers_of_secretsGet {r : Json} (h : (secretsGet deps pluginId args s).1 = .ok r)
    (hname : args.destructure (js "args") (js "name") = .ok (some (.str name))) :
    ∃ grants pattern, (decodedGrants deps pluginId s).1 = .ok grants ∧ Covers grants "secrets.read" pattern name := by
  unfold secretsGet arg at h
  rw [hname, Act.ofExcept_ok_bind] at h
  obtain ⟨granted, hgranted, h⟩ := Act.bind_ok.mp h
  cases granted with
  | true => exact covers_of_requireCap hgranted
  | false => exact absurd h deny_ne_ok

/-- **A plugin puts a secret** under a name that its grants cover. -/
theorem covers_of_secretsPut {r : Json} (h : (secretsPut deps pluginId args s).1 = .ok r)
    (hname : args.destructure (js "args") (js "name") = .ok (some (.str name))) :
    ∃ grants pattern, (decodedGrants deps pluginId s).1 = .ok grants ∧ Covers grants "secrets.write" pattern name := by
  unfold secretsPut arg at h
  rw [hname, Act.ofExcept_ok_bind] at h
  obtain ⟨value, hvalue, h⟩ := Act.bind_ok.mp h
  obtain ⟨granted, hgranted, h⟩ := Act.bind_ok.mp h
  cases granted with
  | true => exact covers_of_requireCap hgranted
  | false => exact absurd h deny_ne_ok

end Handlers

/-! ### Secrets -/

/-- A path leads below a directory: it does not climb out of it, or comes back by the names that it has climbed, and
goes on. -/
def Descends (dir : List JsString) (path : JsString) : Prop := ∃ x xs, Normal.Returns true ⟨0, dir⟩ (relative path) (x :: xs)

/-- A path leads to a directory or below it. -/
def Stays (dir : List JsString) (path : JsString) : Prop := ∃ rest, Normal.Returns true ⟨0, dir⟩ (relative path) rest

section Places

variable {cwd : List JsString} {dataRoot dir path pattern name : JsString}

theorem secretsDir_ne_nil (dataRoot : JsString) : secretsDir dataRoot ≠ [] :=
  List.append_ne_nil_of_right_ne_nil _ (List.cons_ne_nil _ _)

theorem certsDir_ne_nil (dataRoot : JsString) : certsDir dataRoot ≠ [] :=
  List.append_ne_nil_of_right_ne_nil _ (List.cons_ne_nil _ _)

theorem climb_true_eq (dir : List JsString) (path : JsString) :
    Normal.climb true ⟨0, dir⟩ (relative path) = ⟨0, (Normal.climb true ⟨0, dir⟩ (relative path)).names⟩ := rfl

/-- Where a path leads from a directory, name by name. -/
theorem climb_names_eq_iff {dir rest : List JsString} {path : JsString} :
    (Normal.climb true ⟨0, dir⟩ (relative path)).names = dir ++ rest ↔
      Normal.Returns true ⟨0, dir⟩ (relative path) rest := by
  rw [← Normal.climb_names_iff]
  exact (and_iff_right rfl).symm

theorem under_climb_iff {dir : List JsString} {path : JsString} :
    Under dir (Normal.climb true ⟨0, dir⟩ (relative path)).names ↔ Descends dir path := by
  simp only [Under, Descends, climb_names_eq_iff]

/-- When a path leads below the directory that it is joined to. -/
theorem under_joinPath_iff (hdir : dir ≠ []) :
    Under (resolved cwd dir) (resolved cwd (joinPath dir path)) ↔ Descends (resolved cwd dir) path := by
  rw [resolved_joinPath_climb cwd hdir, under_climb_iff]

/-- When a path leads to the directory that it is joined to, or below it. -/
theorem starts_joinPath_iff (hdir : dir ≠ []) :
    resolved cwd dir <+: resolved cwd (joinPath dir path) ↔ Stays (resolved cwd dir) path := by
  rw [resolved_joinPath_climb cwd hdir]
  constructor
  · rintro ⟨rest, hrest⟩
    exact ⟨rest, climb_names_eq_iff.mp hrest.symm⟩
  · rintro ⟨rest, hrest⟩
    exact ⟨rest, (climb_names_eq_iff.mpr hrest).symm⟩

/-- A name that matches `…/*` is the directory, a slash and a rest. -/
theorem name_of_match (hends : endsWith pattern (js "/*") = true) (hmatch : matchNamePattern pattern name = true) :
    name = stem pattern ++ js "/" ++ name.drop (pattern.length - 1) := by
  rw [matchNamePattern, if_pos hends] at hmatch
  obtain ⟨rest, hrest⟩ := startsWith_iff.mp hmatch
  obtain ⟨start, hstart⟩ := endsWith_iff.mp hends
  have hslash : js "/*" = js "/" ++ js "*" := rfl
  have hlength : (js "/*").length = 2 := rfl
  have hstem : stem pattern = start := by
    rw [stem, hstart, List.length_append, hlength, Nat.add_sub_cancel, List.take_left]
  have hlead : pattern.take (pattern.length - 1) = start ++ js "/" := by
    rw [hstart, hslash, ← List.append_assoc, List.length_append]
    exact List.take_left
  have hlast : pattern.length - 1 = (start ++ js "/").length := by
    rw [hstart, List.length_append, List.length_append, hlength]
    rfl
  rw [hstem, hlast, hrest, hlead, List.drop_left]

/-- When a name that matches `…/*` leads below the directory of the pattern. -/
theorem under_patternDir_iff (hends : endsWith pattern (js "/*") = true) (hmatch : matchNamePattern pattern name = true) :
    Under (patternDir cwd dataRoot pattern) (resolved cwd (secretPath dataRoot name)) ↔
      Descends (patternDir cwd dataRoot pattern) (name.drop (pattern.length - 1)) := by
  have hname := name_of_match hends hmatch
  have hpath : resolved cwd (secretPath dataRoot name) =
      (Normal.climb true ⟨0, patternDir cwd dataRoot pattern⟩ (relative (name.drop (pattern.length - 1)))).names := by
    rw [patternDir, resolved_joinPath_climb cwd (secretsDir_ne_nil dataRoot), ← climb_true_eq, ← climb_relative_append, ← hname]
    exact resolved_joinPath_climb cwd (secretsDir_ne_nil dataRoot) name
  rw [hpath, under_climb_iff]

variable (cwd dataRoot) in
/-- What keeps a secret where a pattern wants it. -/
def SecretStays (pattern name : JsString) : Prop :=
  Descends (secretsRoot cwd dataRoot) name ∧
    (endsWith pattern (js "/*") = true → Descends (patternDir cwd dataRoot pattern) (name.drop (pattern.length - 1)))

/-- **When the file of a secret is one that the pattern names.** -/
theorem secretContained_iff (hmatch : matchNamePattern pattern name = true) (hpattern : pattern ≠ js "*") :
    SecretContained cwd dataRoot pattern name ↔
      NoFile cwd (secretPath dataRoot name) ∨ SecretStays cwd dataRoot pattern name := by
  refine or_congr_right (and_congr (under_joinPath_iff (secretsDir_ne_nil dataRoot)) ?_)
  unfold Names
  split
  · rename_i hends
    rw [under_patternDir_iff hends hmatch, imp_iff_right hends]
  · rename_i hends
    have hsame : pattern = name := by
      rw [matchNamePattern, if_neg hends, Bool.or_eq_true, beq_iff_eq, beq_iff_eq] at hmatch
      exact hmatch.resolve_left hpattern
    rw [hsame]
    exact iff_of_true rfl fun h => absurd h (hsame ▸ hends)

end Places

/-! ### Certificates -/

section Certificates

variable {cwd : List JsString} {dataRoot name : JsString} {dir : List JsString} {tree t : Tree}

theorem Frame.trans {t' : Tree} (h : Frame dir tree t) (h' : Frame dir t t') : Frame dir tree t' :=
  ⟨fun p hbelow habove => (h'.elsewhere p hbelow habove).trans (h.elsewhere p hbelow habove),
    fun p hp hnode => h'.above p hp (h.above p hp hnode)⟩

theorem frame_of_chain {trees : List Tree} (h : (tree :: trees).IsChain (Frame dir)) (ht : t ∈ trees) : Frame dir tree t := by
  induction trees generalizing tree with
  | nil => cases ht
  | cons t' trees ih =>
    rw [List.isChain_cons_cons] at h
    rcases List.mem_cons.mp ht with rfl | ht
    · exact h.1
    · exact Frame.trans h.1 (ih h.2 ht)

/-- A certificate whose directory is that of the certificates, or below it, changes nothing elsewhere. -/
theorem certContained_of_starts (h : certsRoot cwd dataRoot <+: resolved cwd (nameDir (certsDir dataRoot) name)) :
    CertContained cwd dataRoot name := by
  intro P tree hroot certPem keyPem certMeta t ht p hp
  have hchain : (tree :: (storeNamed P (certsDir dataRoot) name certPem keyPem certMeta { cwd, tree }).2.log).IsChain
      (Frame (resolved cwd (nameDir (certsDir dataRoot) name))) :=
    (framed_storeNamed rfl).final (trail_start.imp fun _ => trivial) (fun _ _ hv => hv.chain) fun _ _ hv => hv.chain
  have hframe := frame_of_chain hchain ht
  -- the directories above are there already
  have habove : p <+: certsRoot cwd dataRoot → t.node p = tree.node p := by
    intro hpre
    have hdir : tree.node p = some .dir := by
      obtain ⟨rest, hrest⟩ := hpre
      cases rest with
      | nil => rwa [← hrest, List.append_nil] at hroot
      | cons x rest =>
        refine FileTree.dir_of_append (List.cons_ne_nil x rest) ?_
        rw [hrest, hroot]
        exact Option.some_ne_none _
    rw [hdir, hframe.above p (hpre.trans h) hdir]
  have hsame : certsRoot cwd dataRoot <+: p → p <+: certsRoot cwd dataRoot := by
    rintro ⟨rest, rfl⟩
    cases rest with
    | nil => rw [List.append_nil]
    | cons x rest => exact absurd ⟨x, rest, rfl⟩ hp
  by_cases hup : p <+: resolved cwd (nameDir (certsDir dataRoot) name)
  · exact (List.prefix_or_prefix_of_prefix hup h).elim habove fun hdown => habove (hsame hdown)
  · by_cases hdown : resolved cwd (nameDir (certsDir dataRoot) name) <+: p
    · exact habove (hsame (h.trans hdown))
    · exact hframe.elsewhere p hdown hup

/-- A path with a NUL in it is refused before anything is changed. -/
theorem certContained_of_nul (h : ¬ Plain (resolved cwd (nameDir (certsDir dataRoot) name))) :
    CertContained cwd dataRoot name := by
  intro P tree _ certPem keyPem certMeta t ht
  have hnothing : Act.Triple (Trail (fun _ _ => False) tree cwd fun _ => True)
      (storeNamed P (certsDir dataRoot) name certPem keyPem certMeta)
      (fun _ => Trail (fun _ _ => False) tree cwd fun _ => True) fun _ => Trail (fun _ _ => False) tree cwd fun _ => True := by
    refine Act.Triple.bind kept_listGenerations fun gens => ?_
    refine Act.Triple.bind Trail.readNow fun now => ?_
    refine Act.Triple.bind (Q := fun _ => Trail (fun _ _ => False) tree cwd fun _ => False) ?_ fun _ v hv => hv.now.elim
    refine Trail.mkdirSync (fun t t' hplain _ _ => absurd (fun s hs => hplain s ?_) h) fun _ _ hv => hv
    rw [resolved_tmpDir rfl]
    exact List.mem_append_left _ hs
  have hchain := hnothing.final (R := fun v => (tree :: v.log).IsChain fun _ _ => False) (s := { cwd, tree })
    (trail_start.imp fun _ => trivial) (fun _ _ hv => hv.chain) fun _ _ hv => hv.chain
  obtain ⟨t', trees, htrees⟩ := List.exists_cons_of_ne_nil (List.ne_nil_of_mem ht)
  rw [show (storeCert P (certsDir dataRoot) (some (.str name)) certPem keyPem certMeta { cwd, tree }).2.log = _ from htrees] at ht
  have hlog : (storeNamed P (certsDir dataRoot) name certPem keyPem certMeta { cwd, tree }).2.log = t' :: trees := htrees
  rw [hlog, List.isChain_cons_cons] at hchain
  exact hchain.1.elim

/-- Where there are directories only, the generations are listed. -/
theorem listGenerations_dirs (P : Process) (dir : JsString) {v : Certs.Volume} (h : ∀ p c, v.tree.node p ≠ some (.file c)) :
    ∃ gens, listGenerations P dir name v = (.ok gens, v) := by
  unfold listGenerations
  rw [Act.bind_apply]
  simp only [existsSync]
  cases hplace : v.place (nameDir dir name) with
  | none => exact ⟨_, rfl⟩
  | some p =>
    cases hnode : v.tree.node p with
    | none =>
      simp only [Option.any_some, hnode, Option.isSome_none, Bool.false_eq_true, if_false]
      exact ⟨_, rfl⟩
    | some x =>
      cases x with
      | file c => exact absurd hnode (h p c)
      | dir =>
        have hdir : v.tree.isDir p = true := FileTree.isDir_iff.mpr hnode
        simp only [Option.any_some, hnode, Option.isSome_some, if_true, Act.bind_apply, readSubdirectories, inspect, hplace,
          Option.bind_some, FileTree.readdir, hdir, Option.map_some]
        exact ⟨_, rfl⟩

/-- A process whose clock stands still. -/
def stopped (now : ℤ) : Process := ⟨.exact, 1, fun _ => now, fun _ => []⟩

/-- The first change of `storeCert`: the temporary directory. -/
theorem log_storeNamed_dirs (now : ℤ) {path : JsString} (hplain : Plain (resolved cwd (nameDir path name)))
    (htree : ∀ p c, tree.node p ≠ some (.file c)) : ∃ n t,
      (storeNamed (stopped now) path name none none (.obj []) { cwd, tree }).2.log = [t] ∧
        t.node (resolved cwd (nameDir path name) ++ [genName n ++ tmpSuffix 1 now]) = some .dir := by
  obtain ⟨gens, hgens⟩ : ∃ gens, listGenerations (stopped now) path name { cwd, tree } = (.ok gens, { cwd, tree }) :=
    listGenerations_dirs (stopped now) path htree
  obtain ⟨n, hn⟩ : ∃ n, n = gens.getLast?.getD 0 + 1 := ⟨_, rfl⟩
  obtain ⟨t, hmkdirp⟩ := FileTree.exists_mkdirp (t := tree)
    (p := resolved cwd (nameDir path name) ++ [genName n ++ tmpSuffix 1 now]) fun q _ c => htree q c
  have hplace : Volume.place { cwd, tree, ticks := 1 } (genDir path name n ++ tmpSuffix 1 now) =
      some (resolved cwd (nameDir path name) ++ [genName n ++ tmpSuffix 1 now]) := by
    have hcases := place_cases { cwd, tree, ticks := 1 } (genDir path name n ++ tmpSuffix 1 now)
    rw [resolved_tmpDir rfl] at hcases
    refine (hcases.resolve_left fun h => h.1 (hplain.concat ?_)).2
    rw [List.mem_append, not_or]
    exact ⟨by rw [genName, List.mem_append, not_or]; exact ⟨by decide, numeral_ne (by decide) n⟩, nul_not_mem_tmpSuffix 1 now⟩
  refine ⟨n, t, ?_, ?_⟩
  · unfold storeNamed
    rw [Act.bind_apply, hgens]
    simp only [← hn]
    simp only [Act.bind_apply, readNow, stopped, mkdirSync, onPath, Nat.zero_add, hplace, change, hmkdirp, writeSent, Act.throw]
    rfl
  · rw [FileTree.node_mkdirp hmkdirp, if_pos List.prefix_rfl]

/-- Temporary names of different times end differently. -/
theorem tmpName_ne (m n : ℤ) : genName m ++ tmpSuffix 1 0 ≠ genName n ++ tmpSuffix 1 1 := by
  have hlast : ∀ k now, intText now ≠ [] → (genName k ++ tmpSuffix 1 now).getLast? = (intText now).getLast? := by
    intro k now hnow
    rw [tmpSuffix, ← List.append_assoc, List.getLast?_append_of_ne_nil _ hnow]
  intro h
  have h := congrArg List.getLast? h
  rw [hlast m 0 (by decide), hlast n 1 (by decide)] at h
  revert h
  decide

/-- A certificate whose directory is elsewhere leaves a directory there. -/
theorem starts_of_certContained (hplain : Plain (resolved cwd (nameDir (certsDir dataRoot) name)))
    (h : CertContained cwd dataRoot name) : certsRoot cwd dataRoot <+: resolved cwd (nameDir (certsDir dataRoot) name) := by
  by_contra hout
  obtain ⟨tree, htree⟩ := FileTree.exists_mkdirp (t := (FileTree.empty : Tree)) (p := certsRoot cwd dataRoot) fun q _ c => by
    cases q <;> simp [FileTree.empty]
  have hnode := FileTree.node_mkdirp htree
  have hdirs : ∀ p c, tree.node p ≠ some (.file c) := by
    intro p c
    rw [hnode]
    split
    · simp
    · cases p <;> simp [FileTree.empty]
  have hroot : tree.node (certsRoot cwd dataRoot) = some .dir := by rw [hnode, if_pos List.prefix_rfl]
  -- one of two clocks gives a name that is not on the way to the directory of the certificates
  obtain ⟨now, n, t, hlog, hmade, haway⟩ : ∃ now n t,
      (storeNamed (stopped now) (certsDir dataRoot) name none none (.obj []) { cwd, tree }).2.log = [t] ∧
      t.node (resolved cwd (nameDir (certsDir dataRoot) name) ++ [genName n ++ tmpSuffix 1 now]) = some .dir ∧
      ¬ resolved cwd (nameDir (certsDir dataRoot) name) ++ [genName n ++ tmpSuffix 1 now] <+: certsRoot cwd dataRoot := by
    obtain ⟨m, t, ht, hm⟩ := log_storeNamed_dirs 0 hplain hdirs
    obtain ⟨n, t', ht', hn⟩ := log_storeNamed_dirs 1 hplain hdirs
    by_cases hway : resolved cwd (nameDir (certsDir dataRoot) name) ++ [genName m ++ tmpSuffix 1 0] <+: certsRoot cwd dataRoot
    · refine ⟨1, n, t', ht', hn, fun hway' => tmpName_ne m n ?_⟩
      have hsame := (List.prefix_of_prefix_length_le hway hway' (by simp)).eq_of_length (by simp)
      exact List.singleton_inj.mp (List.append_cancel_left hsame)
    · exact ⟨0, m, t, ht, hm, hway⟩
  have hkept := h (stopped now) tree hroot none none (.obj []) t (by rw [storeCert, hlog]; exact List.mem_singleton_self t)
    (resolved cwd (nameDir (certsDir dataRoot) name) ++ [genName n ++ tmpSuffix 1 now])
    fun hunder => hout (concat_eq_append_cons_iff.mp hunder)
  rw [hmade, hnode, if_neg haway] at hkept
  simp [FileTree.empty] at hkept

/-- **When a certificate changes nothing outside the directory of the certificates.** -/
theorem certContained_iff : CertContained cwd dataRoot name ↔
    ¬ Plain (resolved cwd (nameDir (certsDir dataRoot) name)) ∨ Stays (certsRoot cwd dataRoot) name := by
  rw [certsRoot, ← starts_joinPath_iff (certsDir_ne_nil dataRoot)]
  constructor
  · intro h
    by_cases hplain : Plain (resolved cwd (nameDir (certsDir dataRoot) name))
    · exact .inr (starts_of_certContained hplain h)
    · exact .inl hplain
  · rintro (hnul | hstarts)
    · exact certContained_of_nul hnul
    · exact certContained_of_starts hstarts

end Certificates

/-! ### Both stores -/

/-- **Where the stores keep what plugins name.** For every set of grants and every name: the files of the secrets are below
the directory of the secrets and are what the pattern names that covers the name, and a certificate changes nothing outside
the directory of the certificates, exactly when no path climbs out of the directory it starts from, or comes back to it. -/
theorem stores_contained_iff (cwd : List JsString) (dataRoot : JsString) (grants : List Grant) (name : JsString) :
    Contained cwd dataRoot grants name ↔
      (∀ cap ∈ ["secrets.read", "secrets.write"], ∀ pattern, Covers grants cap pattern name → pattern ≠ js "*" →
        NoFile cwd (secretPath dataRoot name) ∨ SecretStays cwd dataRoot pattern name) ∧
      (hasGrant grants (js "certs.store") (fun _ => .ok true) = .ok true →
        ¬ Plain (resolved cwd (nameDir (certsDir dataRoot) name)) ∨ Stays (certsRoot cwd dataRoot) name) := by
  have hsecret : ∀ {cap pattern}, Covers grants cap pattern name → pattern ≠ js "*" →
      (SecretContained cwd dataRoot pattern name ↔
        NoFile cwd (secretPath dataRoot name) ∨ SecretStays cwd dataRoot pattern name) := by
    rintro cap pattern ⟨g, -, -, patterns, -, -, hmatch⟩ hpattern
    exact secretContained_iff hmatch hpattern
  constructor
  · intro h
    exact ⟨fun cap hcap pattern hcovers hpattern => (hsecret hcovers hpattern).mp (h.secrets cap hcap pattern hcovers hpattern),
      fun hgrant => certContained_iff.mp (h.certs hgrant)⟩
  · rintro ⟨hsecrets, hcerts⟩
    exact ⟨fun cap hcap pattern hcovers hpattern => (hsecret hcovers hpattern).mpr (hsecrets cap hcap pattern hcovers hpattern),
      fun hgrant => certContained_iff.mpr (hcerts hgrant)⟩

/-- A plugin that may read the secrets of `acme` reads those of others. -/
theorem acme_reads_others : ¬ Contained [] (js "/data")
    [⟨js "secrets.read", .obj [(js "names", .arr [.str (js "acme/*")])]⟩] (js "acme/../other/key") := by
  intro h
  have hcovers : Covers [⟨js "secrets.read", .obj [(js "names", .arr [.str (js "acme/*")])]⟩] "secrets.read" (js "acme/*")
      (js "acme/../other/key") := ⟨_, List.mem_singleton_self _, rfl, _, rfl, List.mem_singleton_self _, by decide⟩
  rcases h.secrets "secrets.read" List.mem_cons_self _ hcovers (by decide) with (hnul | hslash) | ⟨-, hnames⟩
  · refine hnul fun s hs => ?_
    have hfile : resolved [] (secretPath (js "/data") (js "acme/../other/key")) = [js "data", js "secrets", js "other", js "key"] := by
      decide
    rw [hfile] at hs
    revert s
    decide
  · revert hslash
    decide
  · rw [Names, if_pos (by decide)] at hnames
    have hstarts := hnames.starts
    revert hstarts
    decide

end Wanfw.Orchestrator.Containment
