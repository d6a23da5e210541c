import Wanfw.Js.Path
import Wanfw.Orchestrator.Execute
import Wanfw.Orchestrator.TrustFlow

/-!
# Where the orchestrator writes what plugins name

Two kinds of files are written at paths that come from the plugin side: EXECUTE writes the
configuration of the proxy under the name that `proxy.render` answers (`atomicWriteFile`), and
`POST /plugins/trust-builtins` writes the files of `builtins.read` under the hash that
`builtins.list` reports (`writeBundleFiles`). Both join the name to a directory and look no
further.

`written_inside_iff` says when every file that is written lies in the directory that it is for,
whatever the file system lets happen.
-/

namespace Wanfw.Orchestrator

open Wanfw.Js StateStore TrustFlow

namespace WrittenFiles

/-! ### Writing -/

/-- What the file system lets happen, after the files that were written so far: a path is opened for writing (its
directory is made first), a file takes the place of another. -/
structure Disk where
  opens : List JsString → JsString → Bool
  renames : List JsString → JsString → JsString → Bool

/-- `data/proxycfg` and `data/bundles` of `resolvePaths`. -/
def proxycfgDir (dataRoot : JsString) : JsString := dataRoot ++ js "/proxycfg"

/-- `bundlesDir` of `resolvePaths`. -/
def bundlesDir (dataRoot : JsString) : JsString := dataRoot ++ js "/bundles"

section Writing

variable (disk : Disk)

/-- Open a file and write it. The state is the list of the files that were written. -/
def writeFile (path : JsString) : Act (List JsString) Unit := fun written =>
  if disk.opens written path then (.ok (), written ++ [path]) else (.error (.error (js "EACCES")), written)

/-- `rename(src, dest)`. -/
def rename (src dest : JsString) : Act (List JsString) Unit := fun written =>
  if disk.renames written src dest then (.ok (), written ++ [dest]) else (.error (.error (js "EISDIR")), written)

/-- The suffix of a temporary file: `.tmp-` and random bytes in hexadecimal. -/
def tmpSuffix (random : List UInt8) : JsString :=
  js ".tmp-" ++ random.flatMap fun b => [hexDigit (b.toNat / 16), hexDigit (b.toNat % 16)]

/-- `atomicWriteFile`. -/
def atomicWriteFile (random : List UInt8) (destPath : JsString) : Act (List JsString) Unit := do
  writeFile disk (destPath ++ tmpSuffix random)
  rename disk (destPath ++ tmpSuffix random) destPath

/-- The name under which EXECUTE writes an answer to `proxy.render`: nothing is written where the name, the content or the
command is missing. -/
def renderedName (rendered : Option ProxyRender) : Option JsString :=
  rendered.bind fun r =>
    match r.filename.filter (!·.isEmpty), r.content.filter (!·.isEmpty), r.reloadCmd with
    | some filename, some _, some _ => some filename
    | _, _, _ => none

/-- The files of `writeProxyConfigAndReload`, for an answer to `proxy.render`. -/
def writeRendered (random : List UInt8) (dataRoot : JsString) (rendered : Option ProxyRender) :
    Act (List JsString) Unit :=
  match renderedName rendered with
  | some filename => atomicWriteFile disk random (joinPath (proxycfgDir dataRoot) filename)
  | none => pure ()

/-- `BundleFile`. -/
structure BundleFile where
  relPath : JsString
  contentBase64 : JsString

/-- Where `writeBundleFiles` writes a file. -/
def bundleTarget (bundlesRoot sha256 relPath : JsString) : JsString := joinPath (joinPath bundlesRoot sha256) relPath

/-- `writeBundleFiles`. -/
def writeBundleFiles (bundlesRoot sha256 : JsString) (files : List BundleFile) : Act (List JsString) Unit :=
  Act.forEach files fun file => writeFile disk (bundleTarget bundlesRoot sha256 file.relPath)

end Writing

/-! ### `POST /plugins/trust-builtins` -/

/-- A built-in that `builtins.list` reports, with what `builtins.read` answers for it. -/
structure ReportedBuiltin (κ : Type) where
  deps : TrustFlowDeps κ
  builtin : Builtin
  files : Except JsError (List BundleFile)

section TrustBuiltins

variable {κ : Type} (N : Numerals) (S : SignatureScheme κ) (disk : Disk) (dataRoot : JsString)

/-- The step of the loop, with the tables and the files that were written: `builtins.read` and `trustBuiltin`. -/
def trustReported (reported : ReportedBuiltin κ) : Act (Tables × List JsString) Unit := fun s =>
  match reported.files with
  | .error e => (.error e, s)
  | .ok files =>
    match previousTrustedManifest N s.1 reported.builtin.id with
    | .error e => (.error e, s)
    | .ok _ =>
      match writeBundleFiles disk (bundlesDir dataRoot) reported.builtin.sha256 files s.2 with
      | (.error e, written) => (.error e, (s.1, written))
      | (.ok _, written) =>
        match TrustFlow.trustBuiltin N S reported.deps reported.builtin s.1 with
        | .error e => (.error e, (s.1, written))
        | .ok outcome => (.ok (), (s.1.writeAll outcome.writes, written))

/-- The built-ins that are asked for. -/
def asked (ids : Option (List JsString)) (reported : List (ReportedBuiltin κ)) : List (ReportedBuiltin κ) :=
  match ids with
  | some ids => reported.filter fun r => r.builtin.id ∈ ids
  | none => reported

/-- The loop of `POST /plugins/trust-builtins`. -/
def trustBuiltins (ids : Option (List JsString)) (reported : List (ReportedBuiltin κ)) :
    Act (Tables × List JsString) Unit := Act.forEach (asked ids reported) (trustReported N S disk dataRoot)

end TrustBuiltins

/-! ### What is asked of the files -/

/-- A file lies strictly inside a directory. -/
def StrictlyInside (dir file : JsString) : Prop := isAbsolute file = isAbsolute dir ∧ (normal dir).Inside (normal file)

/-- The text of a SHA-256 hash: 64 hexadecimal digits. -/
def IsHash (s : JsString) : Prop := s.length = 64 ∧ ∀ u ∈ s, (hexDigitValue u).isSome

/-- A file lies inside a directory of the bundles: one that has a hash for a name. -/
def InBundle (dir file : JsString) : Prop :=
  isAbsolute file = isAbsolute dir ∧ ∃ hash, IsHash hash ∧
    Normal.Inside ⟨(normal dir).ups, (normal dir).names ++ [hash]⟩ (normal file)

/-! ### The configuration of the proxy -/

/-- The name of a rendered file stays in the directory, if a temporary file can be opened for it: as a relative path it
ends below the directory. A name that leads to the directory itself does no harm with a slash at its end, if the
directory is not replaced. -/
def RenderStays (disk : Disk) (random : List UInt8) (dataRoot filename : JsString) : Prop :=
  let dir := proxycfgDir dataRoot
  let destPath := joinPath dir filename
  disk.opens [] (destPath ++ tmpSuffix random) = true →
    ∃ rest, Normal.Returns (isAbsolute dir) (normal dir) (relative filename) rest ∧
      (rest = [] → endsWith filename (js "/") = true ∧
        disk.renames [destPath ++ tmpSuffix random] (destPath ++ tmpSuffix random) destPath = false)

theorem tmpSuffix_plain (random : List UInt8) : (47 : UInt16) ∉ tmpSuffix random ∧ 2 < (tmpSuffix random).length := by
  have hdigit : ∀ n < 16, hexDigit n ≠ 47 := by decide
  constructor
  · intro h
    rcases List.mem_append.mp h with h | h
    · revert h
      decide
    · obtain ⟨b, -, hb⟩ := List.mem_flatMap.mp h
      have hlt := b.toNat_lt
      simp only [List.mem_cons, List.not_mem_nil, or_false] at hb
      rcases hb with hb | hb
      · exact hdigit _ (by omega) hb.symm
      · exact hdigit _ (Nat.mod_lt _ (by decide)) hb.symm
  · rw [tmpSuffix, List.length_append]
    exact Nat.lt_of_lt_of_le (by decide) (Nat.le_add_right _ _)

theorem proxycfgDir_ne_nil (dataRoot : JsString) : proxycfgDir dataRoot ≠ [] :=
  List.append_ne_nil_of_right_ne_nil _ (by decide)

theorem names_proxycfgDir (dataRoot : JsString) : (normal (proxycfgDir dataRoot)).names ≠ [] := by
  have hdir : proxycfgDir dataRoot = dataRoot ++ js "/" ++ js "proxycfg" := by
    rw [List.append_assoc]
    rfl
  have hname : Normal.IsName (js "proxycfg") := Normal.isName_of_length (by decide) (by decide)
  rw [normal, hdir, split_slash_append, Normal.walk_append, split_of_not_mem hname.2.2.2]
  rw [Normal.walk_singleton, Normal.push_name hname]
  exact List.append_ne_nil_of_right_ne_nil _ (List.cons_ne_nil _ _)

theorem mem_atomicWriteFile_iff {disk : Disk} {random : List UInt8} {destPath file : JsString} :
    file ∈ (atomicWriteFile disk random destPath []).2 ↔ disk.opens [] (destPath ++ tmpSuffix random) = true ∧
      (file = destPath ++ tmpSuffix random ∨
        disk.renames [destPath ++ tmpSuffix random] (destPath ++ tmpSuffix random) destPath = true ∧ file = destPath) := by
  rw [atomicWriteFile, Act.bind_apply, writeFile]
  cases disk.opens [] (destPath ++ tmpSuffix random) with
  | false => simp
  | true =>
    rw [if_pos rfl, List.nil_append]
    dsimp only
    rw [rename]
    cases disk.renames [destPath ++ tmpSuffix random] (destPath ++ tmpSuffix random) destPath <;> simp

section Proxy

variable (disk : Disk) (random : List UInt8) (dataRoot : JsString)

theorem isAbsolute_destPath (filename : JsString) :
    isAbsolute (joinPath (proxycfgDir dataRoot) filename) = isAbsolute (proxycfgDir dataRoot) :=
  (normal_joinPath (proxycfgDir_ne_nil dataRoot) filename).2

/-- Where the file itself is. -/
theorem strictlyInside_destPath_iff {filename : JsString} :
    StrictlyInside (proxycfgDir dataRoot) (joinPath (proxycfgDir dataRoot) filename) ↔ ∃ x xs,
      Normal.Returns (isAbsolute (proxycfgDir dataRoot)) (normal (proxycfgDir dataRoot)) (relative filename) (x :: xs) := by
  rw [StrictlyInside, isAbsolute_destPath, and_iff_right rfl, normal_joinPath_climb (proxycfgDir_ne_nil dataRoot)]
  exact Normal.inside_climb_iff

/-- Where its temporary file is. -/
theorem strictlyInside_tmpPath_iff {filename : JsString} (hne : filename ≠ []) :
    StrictlyInside (proxycfgDir dataRoot) (joinPath (proxycfgDir dataRoot) filename ++ tmpSuffix random) ↔ ∃ rest,
      Normal.Returns (isAbsolute (proxycfgDir dataRoot)) (normal (proxycfgDir dataRoot)) (relative filename) rest ∧
        (rest = [] → endsWith filename (js "/") = true) := by
  have hdir : proxycfgDir dataRoot ≠ [] := proxycfgDir_ne_nil dataRoot
  have hnames := names_proxycfgDir dataRoot
  have hargs : join ([proxycfgDir dataRoot, filename].filter fun s => s ≠ []) (js "/") =
      proxycfgDir dataRoot ++ js "/" ++ filename := by
    simp [hdir, hne, join, List.intercalate]
  obtain ⟨hslash, hlength⟩ := tmpSuffix_plain random
  have habs : isAbsolute (joinPath (proxycfgDir dataRoot) filename ++ tmpSuffix random) =
      isAbsolute (proxycfgDir dataRoot) := by
    obtain ⟨_, _, -, -, habs⟩ := normal_normalize_append (proxycfgDir dataRoot ++ js "/" ++ filename) hslash hlength
    rw [joinPath, hargs, habs]
    obtain ⟨u, t, ht⟩ := List.exists_cons_of_ne_nil hdir
    rw [ht]
    rfl
  have hsame : normal (joinPath (proxycfgDir dataRoot) filename) = normal (proxycfgDir dataRoot) ↔
      Normal.Returns (isAbsolute (proxycfgDir dataRoot)) (normal (proxycfgDir dataRoot)) (relative filename) [] := by
    rw [← Normal.climb_names_iff, List.append_nil, normal_joinPath_climb hdir]
    constructor
    · intro h
      rw [h]
      exact ⟨rfl, rfl⟩
    · rintro ⟨hups, hnames⟩
      exact (Normal.mk.injEq ..).mpr ⟨hups, hnames⟩
  have hends : normal (joinPath (proxycfgDir dataRoot) filename) = normal (proxycfgDir dataRoot) →
      endsWith (joinPath (proxycfgDir dataRoot) filename) (js "/") = endsWith filename (js "/") := by
    intro h
    rw [joinPath, hargs] at h ⊢
    rw [endsWith_normalize, endsWith_append_slash _ hne]
    rw [← (normal_normalize _).1, h]
    exact hnames
  rw [StrictlyInside, habs, and_iff_right rfl]
  conv_lhs => rw [joinPath]
  rw [inside_normalize_append_iff hnames _ hslash hlength, ← joinPath, normal_joinPath_climb hdir,
    Normal.inside_climb_iff, ← normal_joinPath_climb hdir]
  constructor
  · rintro (⟨x, xs, h⟩ | ⟨hslash, h⟩)
    · exact ⟨_, h, fun h => absurd h (List.cons_ne_nil x xs)⟩
    · exact ⟨[], hsame.mp h, fun _ => hends h ▸ hslash⟩
  · rintro ⟨rest, h, hrest⟩
    cases rest with
    | nil =>
      have hplace := hsame.mpr h
      exact .inr ⟨(hends hplace).trans (hrest rfl), hplace⟩
    | cons x xs => exact .inl ⟨x, xs, h⟩

/-- EXECUTE asks for a write under that name, and for none where there is no name. -/
theorem executeProxyRender_cases (env : Env) (graph : PlanGraph) :
    renderedName graph.proxyRender = none ∧ executeProxyRender env graph = (return none) ∨
    ∃ filename content reloadCmd, renderedName graph.proxyRender = some filename ∧
      executeProxyRender env graph = Act.tryCatch (do
          let output ← writeProxyConfigAndReload env filename content reloadCmd
          journal env.planId (js "proxy.reload") (.obj [(js "filename", .str filename)])
            (StepResult.toJson ⟨js "proxy.reload", true, output⟩)
          return none)
        (failStep env (js "proxy.reload") (js "proxy") (.obj [(js "filename", .str filename)])) := by
  unfold executeProxyRender renderedName
  cases graph.proxyRender with
  | none => exact .inl ⟨rfl, rfl⟩
  | some rendered =>
    rw [Option.bind_some]
    dsimp only
    cases rendered.filename.filter (!·.isEmpty) with
    | none => exact .inl ⟨rfl, rfl⟩
    | some filename =>
      cases rendered.content.filter (!·.isEmpty) with
      | none => exact .inl ⟨rfl, rfl⟩
      | some content =>
        cases rendered.reloadCmd with
        | none => exact .inl ⟨rfl, rfl⟩
        | some reloadCmd => exact .inr ⟨filename, content, reloadCmd, rfl, rfl⟩

/-- **When the configuration is written inside its directory.** -/
theorem rendered_inside_iff (rendered : Option ProxyRender) :
    (∀ file ∈ (writeRendered disk random dataRoot rendered []).2, StrictlyInside (proxycfgDir dataRoot) file) ↔
      ∀ filename, renderedName rendered = some filename → RenderStays disk random dataRoot filename := by
  rw [writeRendered]
  cases hname : renderedName rendered with
  | none => simp
  | some filename =>
    have hne : filename ≠ [] := by
      rintro rfl
      cases rendered with
      | none => cases hname
      | some r =>
        simp only [renderedName, Option.bind_some] at hname
        split at hname
        · rename_i hfilename _ _
          cases hname
          simp [Option.filter_eq_some_iff] at hfilename
        · cases hname
    simp only [mem_atomicWriteFile_iff, Option.some.injEq, forall_eq']
    constructor
    · intro h hopens
      obtain ⟨rest, hreturns, hrest⟩ :=
        (strictlyInside_tmpPath_iff random dataRoot hne).mp (h _ ⟨hopens, .inl rfl⟩)
      refine ⟨rest, hreturns, fun hnil => ⟨hrest hnil, ?_⟩⟩
      by_contra hrenames
      obtain ⟨x, xs, hinside⟩ :=
        (strictlyInside_destPath_iff dataRoot).mp (h _ ⟨hopens, .inr ⟨(Bool.not_eq_false _).mp hrenames, rfl⟩⟩)
      rw [hnil] at hreturns
      have hsame := hreturns.2.symm.trans hinside.2
      exact absurd (List.append_cancel_left hsame) (by simp)
    · rintro h file ⟨hopens, hfile⟩
      obtain ⟨rest, hreturns, hrest⟩ := h hopens
      rcases hfile with rfl | ⟨hrenames, rfl⟩
      · exact (strictlyInside_tmpPath_iff random dataRoot hne).mpr ⟨rest, hreturns, fun hnil => (hrest hnil).1⟩
      · cases rest with
        | nil => exact absurd hrenames (by rw [(hrest rfl).2]; decide)
        | cons x xs => exact (strictlyInside_destPath_iff dataRoot).mpr ⟨x, xs, hreturns⟩

end Proxy

/-! ### The files of the built-ins -/

/-- An entry of `builtins.read` stays in a directory of the bundles: the hash and then the path, as one relative path, go
down to a name that is a hash and on, or climb and come back to do so. -/
def EntryStays (dataRoot sha256 relPath : JsString) : Prop :=
  ∃ hash x xs, IsHash hash ∧ Normal.Returns (isAbsolute (bundlesDir dataRoot)) (normal (bundlesDir dataRoot))
    (Normal.climb false (relative sha256) (relative relPath)) (hash :: x :: xs)

theorem inBundle_bundleTarget_iff (dataRoot sha256 relPath : JsString) :
    InBundle (bundlesDir dataRoot) (bundleTarget (bundlesDir dataRoot) sha256 relPath) ↔
      EntryStays dataRoot sha256 relPath := by
  have hdir : bundlesDir dataRoot ≠ [] := List.append_ne_nil_of_right_ne_nil _ (by decide)
  have hdest : joinPath (bundlesDir dataRoot) sha256 ≠ [] := normalize_ne_nil _
  obtain ⟨hnormal, habs⟩ := normal_joinPath hdir sha256
  have habs' : isAbsolute (bundleTarget (bundlesDir dataRoot) sha256 relPath) = isAbsolute (bundlesDir dataRoot) :=
    (normal_joinPath hdest relPath).2.trans habs
  have hplace : normal (bundleTarget (bundlesDir dataRoot) sha256 relPath) =
      Normal.climb (isAbsolute (bundlesDir dataRoot)) (normal (bundlesDir dataRoot))
        (Normal.climb false (relative sha256) (relative relPath)) := by
    rw [bundleTarget, normal_joinPath_climb hdest, habs, normal_joinPath_climb hdir]
    exact Normal.climb_climb _ _ _ _
  rw [InBundle, habs', and_iff_right rfl, hplace, EntryStays]
  simp only [Normal.Inside, List.append_assoc, List.singleton_append, ← Normal.climb_names_iff, exists_and_left]

/-- A hash and a path that does not climb. -/
theorem entryStays_of_plain (dataRoot : JsString) {sha256 relPath : JsString} (hhash : IsHash sha256)
    (hpath : (relative relPath).ups = 0 ∧ (relative relPath).names ≠ []) : EntryStays dataRoot sha256 relPath := by
  obtain ⟨hlength, hdigits⟩ := hhash
  have hname : Normal.IsName sha256 := by
    refine Normal.isName_of_length (by omega) fun h => ?_
    have hslash := hdigits 47 h
    revert hslash
    decide
  have hsha : relative sha256 = ⟨0, [sha256]⟩ := by
    rw [relative, split_of_not_mem hname.2.2.2, Normal.walk_singleton, Normal.push_name hname]
    rfl
  obtain ⟨x, xs, hnames⟩ := List.exists_cons_of_ne_nil hpath.2
  refine ⟨sha256, x, xs, ⟨hlength, hdigits⟩, .inr ?_, ?_⟩
  · simp [Normal.climb, hsha, hpath.1]
  · simp [Normal.climb, hsha, hpath.1, hnames]

section Builtins

variable {κ : Type} (N : Numerals) (S : SignatureScheme κ) (disk : Disk) (dataRoot : JsString)

/-- The loop of `trust-builtins` comes to an entry: what is before it has gone well. -/
def Comes (asked : List (ReportedBuiltin κ)) (t : Tables) (sha256 relPath : JsString) (written : List JsString) : Prop :=
  ∃ before reported after tables earlier files, asked = before ++ reported :: after ∧
    Act.forEach before (trustReported N S disk dataRoot) (t, []) = (.ok (), (tables, earlier)) ∧
    reported.files = .ok files ∧ (∃ previous, previousTrustedManifest N tables reported.builtin.id = .ok previous) ∧
    sha256 = reported.builtin.sha256 ∧ ∃ filesBefore file filesAfter, files = filesBefore ++ file :: filesAfter ∧
      writeBundleFiles disk (bundlesDir dataRoot) sha256 filesBefore earlier = (.ok (), written) ∧ relPath = file.relPath

theorem mem_writeFile_iff {path : JsString} {written : List JsString} {file : JsString} :
    file ∈ (writeFile disk path written).2 ↔ file ∈ written ∨ disk.opens written path = true ∧ file = path := by
  rw [writeFile]
  cases disk.opens written path <;> simp

theorem mem_writeBundleFiles_iff {sha256 : JsString} {files : List BundleFile} {earlier : List JsString} {path : JsString} :
    path ∈ (writeBundleFiles disk (bundlesDir dataRoot) sha256 files earlier).2 ↔ path ∈ earlier ∨
      ∃ filesBefore file filesAfter written, files = filesBefore ++ file :: filesAfter ∧
        writeBundleFiles disk (bundlesDir dataRoot) sha256 filesBefore earlier = (.ok (), written) ∧
        disk.opens written (bundleTarget (bundlesDir dataRoot) sha256 file.relPath) = true ∧
        path = bundleTarget (bundlesDir dataRoot) sha256 file.relPath := by
  have hstep : ∀ (file : BundleFile) (written : List JsString) (path : JsString),
      path ∈ (writeFile disk (bundleTarget (bundlesDir dataRoot) sha256 file.relPath) written).2 ↔ path ∈ written ∨
        disk.opens written (bundleTarget (bundlesDir dataRoot) sha256 file.relPath) = true ∧
          path = bundleTarget (bundlesDir dataRoot) sha256 file.relPath := fun file written path => mem_writeFile_iff disk
  have hloop := Act.forEach_adds (fun (written : List JsString) (path : JsString) => path ∈ written) _ hstep files earlier path
  exact hloop

/-- What one built-in writes: the files of its answer, if its record can be read. -/
theorem mem_trustReported_iff {reported : ReportedBuiltin κ} {s : Tables × List JsString} {path : JsString} :
    path ∈ (trustReported N S disk dataRoot reported s).2.2 ↔ path ∈ s.2 ∨ ∃ files, reported.files = .ok files ∧
      (∃ previous, previousTrustedManifest N s.1 reported.builtin.id = .ok previous) ∧
      path ∈ (writeBundleFiles disk (bundlesDir dataRoot) reported.builtin.sha256 files s.2).2 := by
  have hkept : ∀ files, path ∈ s.2 → path ∈ (writeBundleFiles disk (bundlesDir dataRoot) reported.builtin.sha256 files s.2).2 :=
    fun files h => (mem_writeBundleFiles_iff disk dataRoot).mpr (.inl h)
  rw [trustReported]
  cases reported.files with
  | error e => simp
  | ok files =>
    dsimp only
    cases previousTrustedManifest N s.1 reported.builtin.id with
    | error e => simp
    | ok previous =>
      have hall : (path ∈ s.2 ∨ ∃ files', (.ok files : Except JsError (List BundleFile)) = .ok files' ∧
          (∃ previous', (.ok previous : Except JsError (Option Manifest)) = .ok previous') ∧
          path ∈ (writeBundleFiles disk (bundlesDir dataRoot) reported.builtin.sha256 files' s.2).2) ↔
          path ∈ (writeBundleFiles disk (bundlesDir dataRoot) reported.builtin.sha256 files s.2).2 := by
        constructor
        · rintro (h | ⟨files', hfiles, -, h⟩)
          · exact hkept files h
          · cases hfiles
            exact h
        · exact fun h => .inr ⟨files, rfl, ⟨previous, rfl⟩, h⟩
      rw [hall]
      rcases writeBundleFiles disk (bundlesDir dataRoot) reported.builtin.sha256 files s.2 with ⟨r, written⟩
      cases r with
      | error e => exact Iff.rfl
      | ok _ =>
        dsimp only
        cases TrustFlow.trustBuiltin N S reported.deps reported.builtin s.1 <;> exact Iff.rfl

/-- **Which files the request writes**: for every entry that it comes to, if the file system lets it. -/
theorem mem_trustBuiltins_iff (ids : Option (List JsString)) (reported : List (ReportedBuiltin κ)) (t : Tables)
    (path : JsString) : path ∈ (trustBuiltins N S disk dataRoot ids reported (t, [])).2.2 ↔
      ∃ sha256 relPath written, Comes N S disk dataRoot (asked ids reported) t sha256 relPath written ∧
        disk.opens written (bundleTarget (bundlesDir dataRoot) sha256 relPath) = true ∧
        path = bundleTarget (bundlesDir dataRoot) sha256 relPath := by
  have hstep : ∀ (r : ReportedBuiltin κ) (s : Tables × List JsString) (path : JsString),
      path ∈ (trustReported N S disk dataRoot r s).2.2 ↔ path ∈ s.2 ∨ ∃ files, r.files = .ok files ∧
        (∃ previous, previousTrustedManifest N s.1 r.builtin.id = .ok previous) ∧
        ∃ filesBefore file filesAfter written, files = filesBefore ++ file :: filesAfter ∧
          writeBundleFiles disk (bundlesDir dataRoot) r.builtin.sha256 filesBefore s.2 = (.ok (), written) ∧
          disk.opens written (bundleTarget (bundlesDir dataRoot) r.builtin.sha256 file.relPath) = true ∧
          path = bundleTarget (bundlesDir dataRoot) r.builtin.sha256 file.relPath := by
    intro r s path
    rw [mem_trustReported_iff]
    constructor
    · rintro (h | ⟨files, hfiles, hprevious, h⟩)
      · exact .inl h
      · rcases (mem_writeBundleFiles_iff disk dataRoot).mp h with h | h
        · exact .inl h
        · exact .inr ⟨files, hfiles, hprevious, h⟩
    · rintro (h | ⟨files, hfiles, hprevious, h⟩)
      · exact .inl h
      · exact .inr ⟨files, hfiles, hprevious, (mem_writeBundleFiles_iff disk dataRoot).mpr (.inr h)⟩
  have hloop := Act.forEach_adds (fun (s : Tables × List JsString) (path : JsString) => path ∈ s.2) _ hstep
    (asked ids reported) (t, []) path
  rw [trustBuiltins, hloop]
  constructor
  · rintro (h | ⟨before, r, after, ⟨tables, earlier⟩, hasked, hbefore, files, hfiles, hprevious, filesBefore, file, filesAfter,
      written, hsplit, hwritten, hopens, hpath⟩)
    · exact absurd h List.not_mem_nil
    · exact ⟨r.builtin.sha256, file.relPath, written, ⟨before, r, after, tables, earlier, files, hasked, hbefore, hfiles,
        hprevious, rfl, filesBefore, file, filesAfter, hsplit, hwritten, rfl⟩, hopens, hpath⟩
  · rintro ⟨sha256, relPath, written, ⟨before, r, after, tables, earlier, files, hasked, hbefore, hfiles, hprevious, rfl,
      filesBefore, file, filesAfter, hsplit, hwritten, rfl⟩, hopens, hpath⟩
    exact .inr ⟨before, r, after, (tables, earlier), hasked, hbefore, files, hfiles, hprevious, filesBefore, file,
      filesAfter, written, hsplit, hwritten, hopens, hpath⟩

end Builtins

/-- **When what plugins name stays where it belongs**: the name of the rendered configuration, and every entry of a
built-in that is written. -/
theorem written_inside_iff {κ : Type} (N : Numerals) (S : SignatureScheme κ) (disk : Disk) (random : List UInt8)
    (dataRoot : JsString) (rendered : Option ProxyRender) (ids : Option (List JsString))
    (reported : List (ReportedBuiltin κ)) (t : Tables) :
    ((∀ file ∈ (writeRendered disk random dataRoot rendered []).2, StrictlyInside (proxycfgDir dataRoot) file) ↔
      ∀ filename, renderedName rendered = some filename → RenderStays disk random dataRoot filename) ∧
    ((∀ file ∈ (trustBuiltins N S disk dataRoot ids reported (t, [])).2.2, InBundle (bundlesDir dataRoot) file) ↔
      ∀ sha256 relPath written, Comes N S disk dataRoot (asked ids reported) t sha256 relPath written →
        disk.opens written (bundleTarget (bundlesDir dataRoot) sha256 relPath) = true →
          EntryStays dataRoot sha256 relPath) := by
  refine ⟨rendered_inside_iff disk random dataRoot rendered, ?_⟩
  constructor
  · intro h sha256 relPath written hcomes hopens
    apply (inBundle_bundleTarget_iff dataRoot sha256 relPath).mp
    apply h
    exact (mem_trustBuiltins_iff N S disk dataRoot ids reported t _).mpr ⟨sha256, relPath, written, hcomes, hopens, rfl⟩
  · intro h file hfile
    obtain ⟨sha256, relPath, written, hcomes, hopens, hpath⟩ :=
      (mem_trustBuiltins_iff N S disk dataRoot ids reported t file).mp hfile
    rw [hpath]
    apply (inBundle_bundleTarget_iff dataRoot sha256 relPath).mpr
    exact h sha256 relPath written hcomes hopens

/-- A file system that lets everything happen. -/
def Disk.open : Disk := ⟨fun _ _ => true, fun _ _ _ => true⟩

/-- A rendered configuration with a name that climbs. -/
def climbingRender : ProxyRender := ⟨some (js "../state/state.db"), some (js "x"), some []⟩

/-- A name that climbs is followed out of the directory. -/
theorem state_overwritten : ¬ ∀ file ∈ (writeRendered Disk.open [0, 0, 0, 0, 0, 0] (js "/data") (some climbingRender) []).2,
    StrictlyInside (proxycfgDir (js "/data")) file := by
  intro h
  have hwritten : js "/data/state/state.db" ∈
      (writeRendered Disk.open [0, 0, 0, 0, 0, 0] (js "/data") (some climbingRender) []).2 := by
    decide +kernel
  obtain ⟨-, -, x, xs, hnames⟩ := h _ hwritten
  have hfile : (normal (js "/data/state/state.db")).names.take 2 = [js "data", js "state"] := by decide +kernel
  have hdir : (normal (proxycfgDir (js "/data"))).names = [js "data", js "proxycfg"] := by decide +kernel
  rw [hnames, hdir] at hfile
  revert hfile
  simp only [List.cons_append, List.nil_append, List.take_succ_cons, List.take_zero]
  decide

end WrittenFiles

end Wanfw.Orchestrator
