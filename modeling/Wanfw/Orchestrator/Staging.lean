import Wanfw.Orchestrator.TrustFlow
import Wanfw.Schemas.BundleHash

/-!
# Trusting a staged bundle while it changes

`trust/staging.ts`, `trust/copy-bundle.ts`: to trust a bundle the orchestrator lists the
directories of the staging area, hashes each and reads its manifest, and then copies the one
that it has found. All three are passes of many operations over a directory that Tier 1 can
write at any time, so every operation finds the staging area as it is at that moment
(`Views`): anything can have happened since the operation before. The copy merges into what
is under `bundles/<sha256>` already.

`trust_records_what_it_hashed`: nothing goes wrong if no directory with a manifest of the
requested id is written during the call, has a link for a manifest, or has two paths that
`localeCompare` takes for equal, and the destination has no file that the bundle has not.
-/

namespace Wanfw.Orchestrator.Staging

open Wanfw.Js Wanfw.Schemas Wanfw.Store StateStore TrustFlow

/-! ### Looking into a directory -/

/-- What stands under a path. -/
def lookup : Tree → Path → Option Tree
  | t, [] => some t
  | .dir entries, n :: p => (entries.find? fun e => e.1 = n).bind fun e => lookup e.2 p
  | _, _ :: _ => none

/-- What `readdir` says of an entry. -/
inductive Kind where
  | file
  | dir
  | other
  deriving DecidableEq

/-- The type of an entry. -/
def kindOf : Tree → Kind
  | .file _ => .file
  | .dir _ => .dir
  | .other => .other

/-- What the operations of a call find in the staging directory: the directory as the operation of that number finds it,
and what it reads through a symbolic link. -/
structure Views where
  tree : ℕ → Bundle
  follow : ℕ → Path → Option (List UInt8)

/-- The operations so far, and the files under `bundles/<sha256>`. Directories and links are left out: they are not
hashed. -/
structure Disk where
  clock : ℕ
  bundle : Table (Prod.fst : File → Path)

/-- `manifest.json`. -/
def manifestJson : Name := ⟨"manifest.json".toList, by decide, by decide, by decide, by decide⟩

namespace Views

variable (env : Views)

/-- What stands under a path of the staging directory at an operation. A directory in whose place there is a symbolic
link by then is not followed. -/
def found (i : ℕ) (p : Path) : Option Tree := lookup (.dir (env.tree i).entries) p

/-- What reading a path gives at an operation. -/
def contents (i : ℕ) (p : Path) : Option (List UInt8) :=
  match env.found i p with
  | some (.file c) => some c
  | some .other => env.follow i p
  | _ => none

end Views

section Passes

variable (env : Views)

/-- An operation that fails. -/
def ioError : JsError := .error (js "ENOENT")

/-- `stat`, with what a copy of the file would have. -/
def stat (p : Path) : Act Disk (Option Tree) := fun s => (.ok (env.found s.clock p), { s with clock := s.clock + 1 })

/-- `readdir(dir, { withFileTypes: true })`. -/
def readdir (p : Path) : Act Disk (List (Name × Kind)) := do
  match ← stat env p with
  | some (.dir entries) => return entries.map fun e => (e.1, kindOf e.2)
  | _ => Act.throw ioError

/-- `readFile(path)`. -/
def readFile (p : Path) : Act Disk (List UInt8) := fun s =>
  ((env.contents s.clock p).elim (.error ioError) .ok, { s with clock := s.clock + 1 })

variable (localeCompare : List Char → List Char → ℤ) (sha256 : List UInt8 → JsString)
  (readManifest : List UInt8 → Option Manifest)

/-- `listFilesSorted`, below a directory of the staging area. A path has a greatest length. -/
def listFilesPass (dir : Name) : ℕ → Path → Act Disk (List Path)
  | 0, _ => Act.throw ioError
  | depth + 1, p => do
    let entries ← readdir env (dir :: p)
    let files ← Act.collect entries fun e =>
      match e.2 with
      | .dir => listFilesPass dir depth (p ++ [e.1])
      | .file => pure [p ++ [e.1]]
      | .other => pure []
    return sortBy (fun a b => localeCompare (relativePath a) (relativePath b)) files

/-- `hashBundleDir`, as a pass: all names first, then the contents of one file after the other. -/
def hashPass (dir : Name) (depth : ℕ) : Act Disk JsString := do
  let paths ← listFilesPass env localeCompare dir depth []
  let files ← Act.collect paths fun p => do
    let c ← readFile env (dir :: p)
    return [(p, c)]
  return sha256 (stream files)

/-- `loadManifest`. -/
def loadManifest (dir : Name) : Act Disk (Option Manifest) :=
  Act.tryCatch (do
    let c ← readFile env [dir, manifestJson]
    return readManifest c) fun _ => pure none

/-- `listStagedBundles`, with the name of each directory. -/
def listStagedBundles (depth : ℕ) : Act Disk (List (Name × StagedBundle)) := do
  let entries ← Act.tryCatch (readdir env []) fun _ => pure []
  Act.collect entries fun e =>
    match e.2 with
    | .dir => do
      let hash ← hashPass env localeCompare sha256 e.1 depth
      let manifest ← loadManifest env readManifest e.1
      return [(e.1, ⟨js (String.ofList e.1.chars), hash, manifest⟩)]
    | _ => pure []

/-- The copy of one file replaces the one that is there. It fails where a directory is in the way. -/
def copyFile (p : Path) (c : List UInt8) : Act Disk Unit := fun s =>
  if s.bundle.rows.any fun f => f.1 ≠ p ∧ (f.1 <+: p ∨ p <+: f.1) then (.error ioError, s)
  else (.ok (), { s with bundle := s.bundle.upsert (p, c) })

/-- `cp(sourceDir, destDir, { recursive: true })`. A link is copied as a link. -/
def cp (dir : Name) : ℕ → Path → Act Disk Unit
  | 0, _ => Act.throw ioError
  | depth + 1, p => do
    let entries ← readdir env (dir :: p)
    Act.forEach entries fun e => do
      match ← stat env (dir :: (p ++ [e.1])) with
      | some (.file c) => copyFile (p ++ [e.1]) c
      | some (.dir _) => cp dir depth (p ++ [e.1])
      | some .other => pure ()
      | none => Act.throw ioError

variable {κ : Type} (N : Numerals) (S : SignatureScheme κ)

/-- `trustStagedBundle(id, sha256)`, for the tables and the time at which it records. -/
def trustStagedBundle (key : κ) (now : JsString) (t : Tables) (id hash : JsString) (depth : ℕ) : Act Disk Outcome := do
  let staged ← listStagedBundles env localeCompare sha256 readManifest depth
  match staged.find? fun b => (b.2.manifest.map Manifest.id == some id) && b.2.sha256 == hash with
  | none => Act.ofExcept (TrustFlow.trustStagedBundle N S ⟨key, [], now⟩ id hash t)
  | some b => do
    cp env b.1 depth []
    Act.ofExcept (TrustFlow.trustStagedBundle N S ⟨key, [b.2], now⟩ id hash t)

end Passes

/-! ### Trees under paths -/

theorem lookup_append (t : Tree) (p q : Path) : lookup t (p ++ q) = (lookup t p).bind fun t' => lookup t' q := by
  induction p generalizing t with
  | nil => rfl
  | cons n p ih =>
    cases t with
    | dir entries =>
      rw [List.cons_append, lookup, lookup, Option.bind_assoc]
      simp only [ih]
    | _ => rfl

theorem ok_of_mem {n : Name} {t : Tree} {entries : List (Name × Tree)} (h : EntriesOk entries) (hmem : (n, t) ∈ entries) :
    t.Ok := by
  induction entries with
  | nil => cases hmem
  | cons e entries ih =>
    rcases List.mem_cons.mp hmem with rfl | hmem
    · exact h.1
    · exact ih h.2 hmem

/-- An entry is found under its name. -/
theorem find_entry {entries : List (Name × Tree)} (hnodup : (entries.map (·.1)).Nodup) {n : Name} {t : Tree} :
    (entries.find? fun e => e.1 = n) = some (n, t) ↔ (n, t) ∈ entries := by
  constructor
  · exact List.mem_of_find?_eq_some
  · intro hmem
    induction entries with
    | nil => cases hmem
    | cons e entries ih =>
      rw [List.map_cons, List.nodup_cons] at hnodup
      rcases List.mem_cons.mp hmem with rfl | hmem
      · simp
      · have hne : e.1 ≠ n := fun h => hnodup.1 (h ▸ List.mem_map_of_mem hmem)
        rw [List.find?_cons_of_neg (by simpa using hne)]
        exact ih hnodup.2 hmem

theorem lookup_singleton {entries : List (Name × Tree)} (hok : (Tree.dir entries).Ok) {n : Name} {t : Tree} :
    lookup (.dir entries) [n] = some t ↔ (n, t) ∈ entries := by
  rw [lookup, ← find_entry hok.1]
  constructor
  · intro h
    obtain ⟨e, he, ht⟩ := Option.bind_eq_some_iff.mp h
    have hname : e.1 = n := by simpa using List.find?_some he
    cases ht
    rw [he, ← hname]
  · intro h
    rw [h]
    rfl

theorem lookup_ok {t t' : Tree} {p : Path} (hok : t.Ok) (h : lookup t p = some t') : t'.Ok := by
  induction p generalizing t with
  | nil =>
    cases h
    exact hok
  | cons n p ih =>
    cases t with
    | dir entries =>
      obtain ⟨e, he, ht⟩ := Option.bind_eq_some_iff.mp h
      exact ih (ok_of_mem hok.2 (List.mem_of_find?_eq_some he)) ht
    | _ => cases h

/-- A tree has a file where it is found. -/
theorem has_iff_lookup {t : Tree} (hok : t.Ok) {p : Path} {c : List UInt8} : t.Has p c ↔ lookup t p = some (.file c) := by
  induction p generalizing t with
  | nil =>
    constructor
    · rintro ⟨⟩
      rfl
    · intro h
      cases h
      exact .file c
  | cons n p ih =>
    cases t with
    | dir entries =>
      rw [lookup]
      constructor
      · intro h
        cases h with
        | dir hmem hhas =>
          rw [(find_entry hok.1).mpr hmem]
          exact (ih (ok_of_mem hok.2 hmem)).mp hhas
      · intro h
        obtain ⟨e, he, ht⟩ := Option.bind_eq_some_iff.mp h
        have hname : e.1 = n := by simpa using List.find?_some he
        have hmem : (n, e.2) ∈ entries := by
          rw [← hname]
          exact List.mem_of_find?_eq_some he
        exact .dir hmem ((ih (ok_of_mem hok.2 hmem)).mpr ht)
    | file contents =>
      constructor
      · rintro ⟨⟩
      · intro h
        cases h
    | other =>
      constructor
      · rintro ⟨⟩
      · intro h
        cases h

/-! ### Passes leave the destination alone -/

/-- An action that does not touch `bundles/<sha256>`. -/
def Keeps {α : Type} (m : Act Disk α) : Prop := ∀ s, (m s).2.bundle = s.bundle

section Keeps

variable {α β : Type} {env : Views}

theorem keeps_pure (a : α) : Keeps (pure a : Act Disk α) := fun _ => rfl

theorem keeps_throw (e : JsError) : Keeps (Act.throw e : Act Disk α) := fun _ => rfl

theorem Keeps.bind {m : Act Disk α} {f : α → Act Disk β} (hm : Keeps m) (hf : ∀ a, Keeps (f a)) : Keeps (m >>= f) := by
  intro s
  have hfirst := hm s
  rw [Act.bind_apply]
  split
  · rename_i a s' heq
    rw [heq] at hfirst
    rw [hf a s', hfirst]
  · rename_i e s' heq
    rw [heq] at hfirst
    exact hfirst

theorem Keeps.tryCatch {m : Act Disk α} {h : JsError → Act Disk α} (hm : Keeps m) (hh : ∀ e, Keeps (h e)) :
    Keeps (Act.tryCatch m h) := by
  intro s
  have hfirst := hm s
  unfold Act.tryCatch
  split
  · rename_i a s' heq
    rw [heq] at hfirst
    exact hfirst
  · rename_i e s' heq
    rw [heq] at hfirst
    rw [hh e s', hfirst]

theorem Keeps.collect {xs : List α} {body : α → Act Disk (List β)} (h : ∀ x, Keeps (body x)) : Keeps (Act.collect xs body) := by
  induction xs with
  | nil => exact keeps_pure _
  | cons x xs ih => exact (h x).bind fun ys => ih.bind fun zs => keeps_pure _

theorem keeps_stat (p : Path) : Keeps (stat env p) := fun _ => rfl

theorem keeps_readFile (p : Path) : Keeps (readFile env p) := fun _ => rfl

theorem keeps_readdir (p : Path) : Keeps (readdir env p) := by
  refine (keeps_stat p).bind fun t => ?_
  cases t with
  | none => exact keeps_throw _
  | some t =>
    cases t with
    | dir entries => exact keeps_pure _
    | _ => exact keeps_throw _

variable {localeCompare : List Char → List Char → ℤ} {sha256 : List UInt8 → JsString}
  {readManifest : List UInt8 → Option Manifest}

theorem keeps_listFilesPass (dir : Name) (depth : ℕ) (p : Path) : Keeps (listFilesPass env localeCompare dir depth p) := by
  induction depth generalizing p with
  | zero => exact keeps_throw _
  | succ depth ih =>
    refine (keeps_readdir _).bind fun entries => Keeps.bind (Keeps.collect fun e => ?_) fun files => keeps_pure _
    cases e.2 with
    | dir => exact ih _
    | file => exact keeps_pure _
    | other => exact keeps_pure _

theorem keeps_hashPass (dir : Name) (depth : ℕ) : Keeps (hashPass env localeCompare sha256 dir depth) := by
  refine (keeps_listFilesPass dir depth []).bind fun paths => Keeps.bind (Keeps.collect fun p => ?_) fun files => keeps_pure _
  exact (keeps_readFile _).bind fun c => keeps_pure _

theorem keeps_loadManifest (dir : Name) : Keeps (loadManifest env readManifest dir) :=
  Keeps.tryCatch ((keeps_readFile _).bind fun _ => keeps_pure _) fun _ => keeps_pure _

end Keeps

/-! ### Passes over a directory that stays as it is -/

section Still

variable {env : Views} {dir : Name} {T : Bundle}

variable (env dir T) in
/-- Every operation finds the directory like this. -/
def Still : Prop := ∀ i, env.found i [dir] = some (.dir T.entries)

theorem Still.found (h : Still env dir T) (i : ℕ) (p : Path) : env.found i (dir :: p) = lookup (.dir T.entries) p := by
  have hsplit : env.found i (dir :: p) = (env.found i [dir]).bind fun t => lookup t p :=
    lookup_append (.dir (env.tree i).entries) [dir] p
  rw [hsplit, h i]
  rfl

theorem readdir_still {P : Disk → Prop} (hP : ∀ s n, P s → P { s with clock := n }) {E : JsError → Disk → Prop}
    (hE : ∀ e s, E e s) (h : Still env dir T) (p : Path) :
    Act.Triple P (readdir env (dir :: p)) (fun es s => P s ∧ ∃ entries, lookup (.dir T.entries) p = some (.dir entries) ∧
      es = entries.map fun e => (e.1, kindOf e.2)) E := by
  refine Act.Triple.bind (Q := fun t s => P s ∧ t = lookup (.dir T.entries) p) ?_ fun t => ?_
  · intro s hs
    exact ⟨hP s _ hs, h.found s.clock p⟩
  · split
    · exact Act.Triple.pure fun s hs => ⟨hs.1, _, hs.2.symm, rfl⟩
    · exact Act.Triple.throw fun s _ => hE _ s

variable {localeCompare : List Char → List Char → ℤ} {sha256 : List UInt8 → JsString}

theorem listEntries_eq_flatMap (p : Path) (entries : List (Name × Tree)) :
    listEntries localeCompare p entries = entries.flatMap fun e => listFilesSorted localeCompare (p ++ [e.1]) e.2 := by
  induction entries with
  | nil => rfl
  | cons e entries ih => rw [listEntries, ih, List.flatMap_cons]

/-- The names that `listFilesSorted` returns for a directory that stays as it is. -/
theorem listFilesPass_still (h : Still env dir T) (depth : ℕ) (p : Path) :
    Act.Triple (fun _ => True) (listFilesPass env localeCompare dir depth p)
      (fun paths _ => ∃ t, lookup (.dir T.entries) p = some t ∧ paths = (listFilesSorted localeCompare p t).map (·.1))
      fun _ _ => True := by
  induction depth generalizing p with
  | zero => exact Act.Triple.throw fun _ _ => trivial
  | succ depth ih =>
    refine Act.Triple.bind (readdir_still (fun _ _ h => h) (fun _ _ => trivial) h p) fun es s hs => ?_
    obtain ⟨-, entries, hdir, rfl⟩ := hs
    have hok : (Tree.dir entries).Ok := lookup_ok T.ok hdir
    -- what each entry contributes
    have hentry : ∀ e ∈ entries, lookup (.dir T.entries) (p ++ [e.1]) = some e.2 := by
      rintro ⟨n, t⟩ hmem
      rw [lookup_append, hdir]
      exact (lookup_singleton hok).mpr hmem
    refine Act.Triple.bind (P := fun _ => True) (Q := fun files _ =>
      files = (listEntries localeCompare p entries).map (·.1)) ?_ (fun files => ?_) s trivial
    · let g : Name × Kind → List Path := fun e =>
        ((lookup (.dir T.entries) (p ++ [e.1])).map fun t => (listFilesSorted localeCompare (p ++ [e.1]) t).map (·.1)).getD []
      refine (Act.Triple.collect (g := g) fun e he => ?_).conseq (fun _ h => h) (fun files _ hfiles => ?_) fun _ _ h => h
      · obtain ⟨⟨n, t⟩, hmem, rfl⟩ := List.mem_map.mp he
        have hg : g (n, kindOf t) = (listFilesSorted localeCompare (p ++ [n]) t).map (·.1) := by
          simp only [g, hentry _ hmem]
          rfl
        rw [hg]
        cases t with
        | file c => exact Act.Triple.pure fun _ _ => ⟨rfl, trivial⟩
        | other => exact Act.Triple.pure fun _ _ => ⟨rfl, trivial⟩
        | dir es =>
          refine (ih (p ++ [n])).conseq (fun _ h => h) (fun paths _ hpaths => ⟨?_, trivial⟩) fun _ _ h => h
          obtain ⟨t, ht, rfl⟩ := hpaths
          rw [hentry _ hmem] at ht
          cases ht
          rfl
      · rw [hfiles.1, listEntries_eq_flatMap, List.map_flatMap, List.flatMap_map]
        refine List.flatMap_congr fun e he => ?_
        simp only [g, hentry e he]
        rfl
    · refine Act.Triple.pure fun _ hfiles => ⟨.dir entries, hdir, ?_⟩
      rw [hfiles, listFilesSorted, sortFiles]
      exact (map_sortBy Prod.fst (fun a b => localeCompare (relativePath a) (relativePath b)) _).symm

theorem Still.contents (h : Still env dir T) (i : ℕ) {p : Path} {c : List UInt8} (hhas : (Tree.dir T.entries).Has p c) :
    env.contents i (dir :: p) = some c := by
  unfold Views.contents
  rw [h.found, (has_iff_lookup T.ok).mp hhas]

variable (localeCompare sha256) in
/-- The hash of a directory that stays as it is. -/
theorem hashPass_still (h : Still env dir T) (depth : ℕ) :
    Act.Triple (fun _ => True) (hashPass env localeCompare sha256 dir depth)
      (fun hash _ => hash = hashBundleDir localeCompare sha256 T) fun _ _ => True := by
  refine Act.Triple.bind (listFilesPass_still h depth []) fun paths s hs => ?_
  obtain ⟨t, ht, rfl⟩ := hs
  cases ht
  refine Act.Triple.bind (P := fun _ => True) (Q := fun files _ => files = T.files localeCompare) ?_ (fun files => ?_)
    s trivial
  · let g : Path → List File := fun p => ((env.contents 0 (dir :: p)).map fun c => (p, c)).toList
    refine (Act.Triple.collect (g := g) fun p hp => ?_).conseq (fun _ h => h) (fun files _ hfiles => ?_) fun _ _ h => h
    · obtain ⟨⟨p, c⟩, hf, rfl⟩ := List.mem_map.mp hp
      have hcontents := fun i => h.contents i ((Bundle.mem_files localeCompare).mp hf)
      intro s _
      simp only [Act.bind_apply, readFile, hcontents, Option.elim_some, Act.pure_apply, g]
      exact ⟨rfl, trivial⟩
    · rw [hfiles.1]
      change ((T.files localeCompare).map (·.1)).flatMap g = T.files localeCompare
      rw [List.flatMap_map]
      refine (List.flatMap_congr (g := fun f => [f]) fun f hf => ?_).trans (List.flatMap_singleton' _)
      simp only [g, h.contents 0 ((Bundle.mem_files localeCompare).mp hf)]
      rfl
  · exact Act.Triple.pure fun _ hfiles => by rw [hfiles, hashBundleDir]

/-! ### What is listed -/

variable {readManifest : List UInt8 → Option Manifest}

variable (env localeCompare sha256 readManifest) in
/-- What a listed bundle says of its directory: some operation read the manifest, and the hash is the directory's if that
stays as it is. -/
structure Listed (b : Name × StagedBundle) : Prop where
  manifest : ∀ m, b.2.manifest = some m → ∃ i, (env.contents i [b.1, manifestJson]).bind readManifest = some m
  hash : ∀ T, Still env b.1 T → b.2.sha256 = hashBundleDir localeCompare sha256 T

variable (env readManifest) in
theorem loadManifest_spec (dir : Name) :
    Act.Triple (fun _ => True) (loadManifest env readManifest dir)
      (fun manifest _ => ∀ m, manifest = some m → ∃ i, (env.contents i [dir, manifestJson]).bind readManifest = some m)
      fun _ _ => True := by
  intro s _
  unfold loadManifest Act.tryCatch
  rw [Act.bind_apply]
  simp only [readFile]
  cases hc : env.contents s.clock [dir, manifestJson] with
  | none => exact fun m hm => by cases hm
  | some c => exact fun m hm => ⟨s.clock, by rw [hc]; exact hm⟩

variable (env localeCompare sha256 readManifest) in
theorem listStagedBundles_spec (depth : ℕ) :
    Act.Triple (fun _ => True) (listStagedBundles env localeCompare sha256 readManifest depth)
      (fun staged _ => ∀ b ∈ staged, Listed env localeCompare sha256 readManifest b) fun _ _ => True := by
  refine Act.Triple.bind (Q := fun _ _ => True) (fun s _ => by split <;> trivial) fun entries => ?_
  refine (Act.Triple.collectAll fun e _ => ?_).conseq (fun _ h => h) (fun _ _ h => h.1) fun _ _ h => h
  split
  · refine Act.Triple.bind (Q := fun hash _ => ∀ T, Still env e.1 T → hash = hashBundleDir localeCompare sha256 T)
      (fun s _ => ?_) fun hash => ?_
    · -- the pass says so for each directory that stays
      cases hrun : hashPass env localeCompare sha256 e.1 depth s with
      | mk r s' =>
        cases r with
        | error err => trivial
        | ok hash =>
          intro T hT
          have := hashPass_still localeCompare sha256 hT depth s trivial
          rw [hrun] at this
          exact this
    · refine Act.Triple.bind (Q := fun manifest _ => (∀ T, Still env e.1 T → hash = hashBundleDir localeCompare sha256 T) ∧
        ∀ m, manifest = some m → ∃ i, (env.contents i [e.1, manifestJson]).bind readManifest = some m)
        (fun s hs => ?_) fun manifest => ?_
      · have := loadManifest_spec env readManifest e.1 s trivial
        split at this
        · exact ⟨hs, this⟩
        · trivial
      · refine Act.Triple.pure fun s hs => ⟨fun b hb => ?_, trivial⟩
        rw [List.mem_singleton.mp hb]
        exact ⟨hs.2, hs.1⟩
  · exact Act.Triple.pure fun s _ => ⟨by simp, trivial⟩

variable (env localeCompare sha256 readManifest) in
theorem keeps_listStagedBundles (depth : ℕ) : Keeps (listStagedBundles env localeCompare sha256 readManifest depth) := by
  refine Keeps.bind (Keeps.tryCatch (keeps_readdir _) fun _ => keeps_pure _) fun entries => Keeps.collect fun e => ?_
  split
  · exact (keeps_hashPass _ _).bind fun hash => (keeps_loadManifest _).bind fun manifest => keeps_pure _
  · exact keeps_pure _

/-! ### What is copied -/

variable (T) in
/-- Every file of the destination comes from the directory or was there before. -/
def FromBoth (before : Table (Prod.fst : File → Path)) (s : Disk) : Prop :=
  ∀ f ∈ s.bundle, (Tree.dir T.entries).Has f.1 f.2 ∨ f ∈ before

variable (T) in
/-- The files of the directory under these paths are in the destination. -/
def Copied (A : Path → Prop) (s : Disk) : Prop := ∀ q c, A q → (Tree.dir T.entries).Has q c → (q, c) ∈ s.bundle

theorem copyFile_spec {before : Table (Prod.fst : File → Path)} {A : Path → Prop} {p : Path} {c : List UInt8}
    (hhas : (Tree.dir T.entries).Has p c) :
    Act.Triple (fun s => FromBoth T before s ∧ Copied T A s) (copyFile p c)
      (fun _ s => FromBoth T before s ∧ Copied T (fun q => A q ∨ q = p) s) fun _ _ => True := by
  intro s hs
  unfold copyFile
  by_cases hclash : (s.bundle.rows.any fun f => f.1 ≠ p ∧ (f.1 <+: p ∨ p <+: f.1)) = true
  · rw [if_pos hclash]
    trivial
  · rw [if_neg hclash]
    refine ⟨fun f hf => ?_, fun q d hq hd => ?_⟩
    · rcases Table.mem_upsert.mp hf with rfl | ⟨hf, -⟩
      · exact .inl hhas
      · exact hs.1 f hf
    · by_cases hqp : q = p
      · subst hqp
        have hdc := ((has_iff_lookup T.ok).mp hd).symm.trans ((has_iff_lookup T.ok).mp hhas)
        cases hdc
        exact Table.mem_upsert.mpr (.inl rfl)
      · exact Table.mem_upsert.mpr (.inr ⟨hs.2 q d (hq.resolve_right hqp) hd, hqp⟩)

/-- Nothing stands below a file. -/
theorem eq_of_prefix_file {p q : Path} {c d : List UInt8} (hp : (Tree.dir T.entries).Has p c)
    (hq : (Tree.dir T.entries).Has q d) (hinit : p <+: q) : p = q := by
  obtain ⟨r, rfl⟩ := hinit
  have hfile := (has_iff_lookup T.ok).mp hq
  rw [lookup_append, (has_iff_lookup T.ok).mp hp] at hfile
  cases r with
  | nil => rw [List.append_nil]
  | cons n r => cases hfile

/-- `cp` copies every file below a path of a directory that stays as it is. -/
theorem cp_still (h : Still env dir T) (before : Table (Prod.fst : File → Path)) (depth : ℕ) (p : Path) (A : Path → Prop) :
    Act.Triple (fun s => FromBoth T before s ∧ Copied T A s) (cp env dir depth p)
      (fun _ s => FromBoth T before s ∧ Copied T (fun q => A q ∨ p <+: q) s) fun _ _ => True := by
  induction depth generalizing p A with
  | zero => exact Act.Triple.throw fun _ _ => trivial
  | succ depth ih =>
    refine Act.Triple.bind (readdir_still (fun _ _ h => h) (fun _ _ => trivial) h p) fun es s hs => ?_
    obtain ⟨hs, entries, hdir, rfl⟩ := hs
    -- what is copied, but for the entries that are left
    let left : List (Name × Kind) → Path → Prop := fun todo q => A q ∨ p <+: q ∧ ∀ e ∈ todo, ¬ p ++ [e.1] <+: q
    let P := fun s => FromBoth T before s ∧ Copied T A s
    refine (Act.Triple.forEachLeft (I := fun todo s => FromBoth T before s ∧ Copied T (left todo) s)
      (fun e todo => ?_) _).conseq (show ∀ s, P s → _ from ?_) ?_ (fun _ _ h => h) s hs
    · refine Act.Triple.bind (Q := fun t s => (FromBoth T before s ∧ Copied T (left (e :: todo)) s) ∧
        t = lookup (.dir T.entries) (p ++ [e.1])) (fun s hs => ⟨hs, h.found s.clock _⟩) fun t => ?_
      -- the files below the entry complete what is left
      have hcover : ∀ s, FromBoth T before s ∧ Copied T (fun q => left (e :: todo) q ∨ p ++ [e.1] <+: q) s →
          FromBoth T before s ∧ Copied T (left todo) s := by
        refine fun s hs => ⟨hs.1, fun q c hq hhas => hs.2 q c ?_ hhas⟩
        by_cases hbelow : p ++ [e.1] <+: q
        · exact .inr hbelow
        · refine .inl (hq.imp id fun hq => ⟨hq.1, ?_⟩)
          exact List.forall_mem_cons.mpr ⟨hbelow, hq.2⟩
      split
      · rename_i c
        intro s hs
        have hhas := (has_iff_lookup T.ok).mpr hs.2.symm
        have hcopy := copyFile_spec hhas s hs.1
        split at hcopy
        · refine hcover _ ⟨hcopy.1, fun q d hq hd => hcopy.2 q d (hq.imp id fun hbelow => ?_) hd⟩
          exact (eq_of_prefix_file hhas hd hbelow).symm
        · trivial
      · refine (ih (p ++ [e.1]) (left (e :: todo))).conseq (fun s hs => hs.1) (fun _ s hs => hcover s hs) fun _ _ h => h
      · refine Act.Triple.pure fun s hs => hcover s ⟨hs.1.1, fun q d hq hd => ?_⟩
        refine hq.elim (fun hq => hs.1.2 q d hq hd) fun hbelow => ?_
        obtain ⟨r, rfl⟩ := hbelow
        have hfile := (has_iff_lookup T.ok).mp hd
        rw [lookup_append, ← hs.2] at hfile
        cases r with
        | nil => cases hfile
        | cons n r => cases hfile
      · exact Act.Triple.throw fun _ _ => trivial
    · refine fun s hs => ⟨hs.1, fun q c hq hhas => hq.elim (fun hA => hs.2 q c hA hhas) fun hbelow => ?_⟩
      obtain ⟨⟨r, rfl⟩, hnone⟩ := hbelow
      have hfile := (has_iff_lookup T.ok).mp hhas
      rw [lookup_append, hdir, Option.bind_some] at hfile
      cases r with
      | nil => cases hfile
      | cons n r =>
        rw [lookup] at hfile
        obtain ⟨e, he, -⟩ := Option.bind_eq_some_iff.mp hfile
        have hname : e.1 = n := by simpa using List.find?_some he
        refine absurd ?_ (hnone (e.1, kindOf e.2) (List.mem_map_of_mem (List.mem_of_find?_eq_some he)))
        exact ⟨r, by rw [hname]; simp⟩
    · refine fun _ s hs => ⟨hs.1, fun q c hq hhas => hs.2 q c (hq.imp id fun hbelow => ⟨hbelow, by simp⟩) hhas⟩

/-! ### Trusting -/

variable {κ : Type} {N : Numerals} {S : SignatureScheme κ} {key : κ} {now id hash : JsString} {t : Tables} {o : Outcome}

/-- The writes of a trust call that has found a bundle. -/
theorem writes_of_found {b : StagedBundle} (hfound : ((b.manifest.map Manifest.id == some id) && b.sha256 == hash) = true)
    (h : TrustFlow.trustStagedBundle N S ⟨key, [b], now⟩ id hash t = .ok o) :
    ∃ m, b.manifest = some m ∧ m.id = id ∧ b.sha256 = hash ∧
      o.writes = .insertTrustRecord (signedRecord S key now m hash) ::
        (m.capabilities.map (signedGrant S key now m)).map .insertGrant := by
  have hfind : findStagedBundle [b] id hash = some b := List.find?_cons_of_pos hfound
  simp only [Bool.and_eq_true, beq_iff_eq] at hfound
  obtain ⟨m, hm, hid⟩ := Option.map_eq_some_iff.mp hfound.1
  refine ⟨m, hm, hid, hfound.2, ?_⟩
  unfold TrustFlow.trustStagedBundle at h
  simp only [hfind, Option.bind_some, hm, recordTrustAndGrants_eq] at h
  cases hprevious : previousTrustedManifest N t id with
  | error e =>
    rw [hprevious] at h
    cases h
  | ok previous =>
    rw [hprevious] at h
    cases h
    rfl

variable (env localeCompare sha256 hash) in
/-- A directory of the staging area that no one disturbs: all operations find the same, its manifest is a file, no two of
its paths tie, and if it has the requested hash, then it has a file wherever the destination has one. -/
def Undisturbed (before : Table (Prod.fst : File → Path)) (dir : Name) : Prop :=
  ∃ T : Bundle, Still env dir T ∧ (∃ c, (Tree.dir T.entries).Has [manifestJson] c) ∧
    (∀ f ∈ T.files localeCompare, ∀ g ∈ T.files localeCompare, localeCompare (relativePath f.1) (relativePath g.1) ≤ 0 →
      localeCompare (relativePath g.1) (relativePath f.1) ≤ 0 → f.1 = g.1) ∧
    (hashBundleDir localeCompare sha256 T = hash → ∀ f ∈ before, ∃ c, (Tree.dir T.entries).Has f.1 c)

variable (S key now hash localeCompare sha256 readManifest) in
/-- What is recorded is the manifest of the stored tree, and the tree has the hash under which it is stored. -/
def RecordsStored (o : Outcome) (bundle : Table (Prod.fst : File → Path)) : Prop :=
  (∃ m c, ([manifestJson], c) ∈ bundle ∧ readManifest c = some m ∧
    o.writes = .insertTrustRecord (signedRecord S key now m hash) ::
      (m.capabilities.map (signedGrant S key now m)).map .insertGrant) ∧
  ∀ b : Bundle, (∀ p c, (Tree.dir b.entries).Has p c ↔ (p, c) ∈ bundle) → hashBundleDir localeCompare sha256 b = hash

/-- What `cp` leaves of a directory that nobody disturbs. -/
theorem mem_bundle_iff {before : Table (Prod.fst : File → Path)} {s : Disk} (hfrom : FromBoth T before s)
    (hcopied : Copied T (fun _ => True) s) (hfresh : ∀ f ∈ before, ∃ c, (Tree.dir T.entries).Has f.1 c) (p : Path)
    (c : List UInt8) : (p, c) ∈ s.bundle ↔ (Tree.dir T.entries).Has p c := by
  refine ⟨fun hmem => (hfrom _ hmem).elim (fun h => h) fun hbefore => ?_, hcopied p c trivial⟩
  obtain ⟨d, hd⟩ := hfresh _ hbefore
  cases Table.eq_of_key_eq hmem (hcopied p d trivial hd) rfl
  exact hd

variable (N S) in
/-- **Trust records what it hashed, if nobody disturbs the bundle.** Let a call of `trustStagedBundle` succeed, whatever
was written to the staging directory between any two of its operations. If no one disturbs the directories that have a
manifest of the requested id at some time of the call, then the tree under `bundles/<sha256>` has this hash, and trust and
grants are recorded for the manifest in that tree. -/
theorem trust_records_what_it_hashed (htotal : ∀ a b, localeCompare a b ≤ 0 ∨ localeCompare b a ≤ 0)
    (htrans : ∀ a b c, localeCompare a b ≤ 0 → localeCompare b c ≤ 0 → localeCompare a c ≤ 0) (depth : ℕ)
    (s s' : Disk) (hrun : trustStagedBundle env localeCompare sha256 readManifest N S key now t id hash depth s = (.ok o, s'))
    (hundisturbed : ∀ dir i m, (env.contents i [dir, manifestJson]).bind readManifest = some m → m.id = id →
      Undisturbed env localeCompare sha256 hash s.bundle dir) :
    RecordsStored localeCompare sha256 readManifest S key now hash o s'.bundle := by
  unfold trustStagedBundle at hrun
  rw [Act.bind_apply] at hrun
  have hkeeps := keeps_listStagedBundles env localeCompare sha256 readManifest depth s
  have hlisted := listStagedBundles_spec env localeCompare sha256 readManifest depth s trivial
  cases hlist : listStagedBundles env localeCompare sha256 readManifest depth s with
  | mk r s₁ =>
    rw [hlist] at hrun hkeeps hlisted
    cases r with
    | error e => cases hrun
    | ok staged =>
      dsimp only at hrun hlisted hkeeps
      cases hfind : staged.find? fun b => (b.2.manifest.map Manifest.id == some id) && b.2.sha256 == hash with
      | none =>
        rw [hfind] at hrun
        cases hrun
      | some b =>
        rw [hfind] at hrun
        dsimp only at hrun
        have hspec := hlisted b (List.mem_of_find?_eq_some hfind)
        rw [Act.bind_apply] at hrun
        cases hcp : cp env b.1 depth [] s₁ with
        | mk r s₂ =>
          rw [hcp] at hrun
          cases r with
          | error e => cases hrun
          | ok u =>
            obtain ⟨hok, rfl⟩ := Prod.mk.inj hrun
            have hb := List.find?_some hfind
            obtain ⟨m, hm, hid, hhash, hwrites⟩ := writes_of_found hb hok
            obtain ⟨i, hi⟩ := hspec.manifest m hm
            obtain ⟨T, hstill, ⟨c, hc⟩, hties, hfresh⟩ := hundisturbed b.1 i m hi hid
            have hT : hashBundleDir localeCompare sha256 T = hash := (hspec.hash T hstill).symm.trans hhash
            have hcopy := cp_still hstill s.bundle depth [] (fun _ => False) s₁
              ⟨fun f hf => .inr (hkeeps ▸ hf), fun _ _ h => h.elim⟩
            rw [hcp] at hcopy
            have hmem := mem_bundle_iff hcopy.1 (fun q d _ hd => hcopy.2 q d (.inr q.nil_prefix) hd) (hfresh hT)
            refine ⟨⟨m, c, (hmem _ _).mpr hc, ?_, hwrites⟩, fun b' hb' => ?_⟩
            · rwa [hstill.contents i hc] at hi
            · have hfiles := files_eq_of_has htotal htrans hties fun p d => (hb' p d).trans (hmem p d)
              rw [← hT, hashBundleDir, hashBundleDir, hfiles]

end Still

/-! ### A manifest that changes between the passes -/

/-- The text of a manifest without capabilities. -/
def manifestText (id version : String) : JsString :=
  js "\x7b\"manifestVersion\":1,\"id\":\"" ++ js id ++ js "\",\"version\":\"" ++ js version ++
    js "\",\"frameworkApi\":\"^1.0\",\"types\":[\"deploy\"],\"entrypoint\":\"index.js\"," ++
    js "\"runtime\":\"node22\",\"capabilities\":[]\x7d"

/-- The manifest of that text. -/
def sampleManifest (id version : String) : Manifest := ⟨js id, js version, [js "deploy"], none, []⟩

/-- `validateManifest(JSON.parse(text))`, on the texts of these examples. -/
def readMedia (text : List UInt8) : Option Manifest :=
  if text = utf8 (manifestText "media" "1.0.0") then some (sampleManifest "media" "1.0.0")
  else if text = utf8 (manifestText "media" "2.0.0") then some (sampleManifest "media" "2.0.0")
  else if text = utf8 (manifestText "blog" "1.0.0") then some (sampleManifest "blog" "1.0.0")
  else none

/-- `index.js`. -/
def indexJs : Name := ⟨"index.js".toList, by decide, by decide, by decide, by decide⟩

/-- A manifest and a program. -/
def sampleEntries (id version program : String) : List (Name × Tree) :=
  [(manifestJson, .file (utf8 (manifestText id version))), (indexJs, .file (utf8 (js program)))]

theorem sampleEntries_ok (id version program : String) : (Tree.dir (sampleEntries id version program)).Ok := by
  refine ⟨?_, trivial, trivial, trivial⟩
  change [manifestJson, indexJs].Nodup
  decide

/-- The bundle of a version. -/
def mediaBundle (version : String) : Bundle := ⟨sampleEntries "media" version "x", sampleEntries_ok _ _ _⟩

/-- The staging directory with that bundle under `a`, and another one under `b`. -/
def mediaStaging (version program : String) : Bundle where
  entries := [(nameA, .dir (sampleEntries "media" version "x")), (nameB, .dir (sampleEntries "blog" "1.0.0" program))]
  ok := by
    refine ⟨?_, sampleEntries_ok _ _ _, sampleEntries_ok _ _ _, trivial⟩
    change [nameA, nameB].Nodup
    decide

/-- What is hashed of a manifest and a program. -/
def bundleText (id version program : String) : JsString :=
  js "index.js\x00" ++ js program ++ js "manifest.json\x00" ++ manifestText id version

/-- The texts of these bundles, with their digests. -/
def mediaDigests : List (JsString × JsString) :=
  [(bundleText "media" "1.0.0" "x", js "43ae96b90679bd4cf62c70231d154761e0965fb8d0d98055440526724ccd12a2"),
    (bundleText "media" "2.0.0" "x", js "a9b4e82e6c126521183664bf2976e8d55caae9a11fa78661c117149d5a08e26d"),
    (bundleText "blog" "1.0.0" "x", js "9716a6754567e921304d39eb612a824d14ecffc2e330464db414d6f502b47964"),
    (bundleText "blog" "1.0.0" "y", js "c65010e537f341e1e4505e74796ad044b34201e96aa42be342828867d341b529")]

/-- The hash of the bundle of version 1.0.0. -/
def mediaHash : JsString := hashBundleDir compareOrder (shaOf mediaDigests) (mediaBundle "1.0.0")

example : mediaHash = js "43ae96b90679bd4cf62c70231d154761e0965fb8d0d98055440526724ccd12a2" := by decide +kernel

/-- The call, on a new store. -/
def trustMedia (env : Views) : Except JsError Outcome × Disk :=
  trustStagedBundle env compareOrder (shaOf mediaDigests) readMedia Numerals.exact sampleScheme (js "key")
    (js "2025-01-01T00:00:00.000Z") .empty (js "media") mediaHash 2 ⟨0, .empty⟩

theorem exists_of_toBool {α σ : Type} {x : Except JsError α × σ} (h : x.1.toBool = true) : ∃ a, x = (.ok a, x.2) := by
  obtain ⟨r, s⟩ := x
  cases r with
  | error e => cases h
  | ok a => exact ⟨a, rfl⟩

/-- From the eighth operation on, the program of the other bundle is another one. -/
def stillViews : Views := ⟨fun i => mediaStaging "1.0.0" (if i < 7 then "x" else "y"), fun _ _ => none⟩

theorem files_mediaBundle : (mediaBundle "1.0.0").files compareOrder =
    [([indexJs], utf8 (js "x")), ([manifestJson], utf8 (manifestText "media" "1.0.0"))] := by
  decide +kernel

theorem undisturbed_still (dir : Name) (i : ℕ) (m : Manifest)
    (h : (stillViews.contents i [dir, manifestJson]).bind readMedia = some m) (hid : m.id = js "media")
    (before : Table (Prod.fst : File → Path)) (hbefore : before = .empty) :
    Undisturbed stillViews compareOrder (shaOf mediaDigests) mediaHash before dir := by
  have hdir : dir = nameA := by
    by_contra hne
    by_cases hb : dir = nameB
    · have hblog : readMedia (utf8 (manifestText "blog" "1.0.0")) = some (sampleManifest "blog" "1.0.0") := by
        rw [readMedia, if_neg (by decide +kernel), if_neg (by decide +kernel), if_pos rfl]
      have hcontents : stillViews.contents i [nameB, manifestJson] = some (utf8 (manifestText "blog" "1.0.0")) := rfl
      rw [hb, hcontents, Option.bind_some, hblog] at h
      cases h
      revert hid
      decide
    · have hnone : stillViews.found i [dir, manifestJson] = none := by
        simp [Views.found, stillViews, mediaStaging, lookup, Ne.symm hne, Ne.symm hb]
      simp [Views.contents, hnone] at h
  subst hdir
  refine ⟨mediaBundle "1.0.0", fun i => rfl, ⟨_, .dir List.mem_cons_self (.file _)⟩, ?_, ?_⟩
  · have hfirst : ¬ compareOrder (relativePath [manifestJson]) (relativePath [indexJs]) ≤ 0 := by decide
    intro f hf g hg hfg hgf
    rw [files_mediaBundle, List.mem_pair] at hf hg
    rcases hf with rfl | rfl <;> rcases hg with rfl | rfl
    · rfl
    · exact absurd hgf hfirst
    · exact absurd hfg hfirst
    · rfl
  · rintro - f hf
    subst hbefore
    cases hf

/-- A bundle that stays as it is is recorded with its manifest, while another one is rewritten. -/
theorem still_bundle_recorded :
    stillViews.contents 6 [nameB, indexJs] ≠ stillViews.contents 7 [nameB, indexJs] ∧
    ∃ o s', trustMedia stillViews = (.ok o, s') ∧ 7 < s'.clock ∧
      RecordsStored compareOrder (shaOf mediaDigests) readMedia sampleScheme (js "key") (js "2025-01-01T00:00:00.000Z")
        mediaHash o s'.bundle := by
  obtain ⟨o, ho⟩ := exists_of_toBool (x := trustMedia stillViews) (by decide +kernel)
  refine ⟨by decide, o, (trustMedia stillViews).2, ho, by decide +kernel, ?_⟩
  refine trust_records_what_it_hashed Numerals.exact sampleScheme ?_ ?_ 2 ⟨0, .empty⟩ _ ho
    fun dir i m h hid => undisturbed_still dir i m h hid _ rfl
  · simpa only [compareOrder_le] using fun a b => le_total a b
  · simpa only [compareOrder_le] using fun a b c => le_trans

/-- After the listing the manifest is another one. -/
def swappedViews : Views := ⟨fun i => mediaStaging (if i < 9 then "1.0.0" else "2.0.0") "x", fun _ _ => none⟩

/-- The call succeeds, and stores a tree that has neither the hash nor the manifest that are recorded. -/
theorem swapped_manifest_stored : ∃ o s', trustMedia swappedViews = (.ok o, s') ∧
    ¬ RecordsStored compareOrder (shaOf mediaDigests) readMedia sampleScheme (js "key") (js "2025-01-01T00:00:00.000Z")
      mediaHash o s'.bundle := by
  obtain ⟨o, ho⟩ := exists_of_toBool (x := trustMedia swappedViews) (by decide +kernel)
  refine ⟨o, (trustMedia swappedViews).2, ho, fun h => ?_⟩
  have hrows : ((trustMedia swappedViews).2.bundle.rows.Perm ((mediaBundle "2.0.0").files compareOrder)) := by decide +kernel
  have hstored := h.2 (mediaBundle "2.0.0") fun p c => ?_
  · revert hstored
    decide +kernel
  · rw [← Bundle.mem_files compareOrder, Table.mem_iff, hrows.mem_iff]

end Wanfw.Orchestrator.Staging
