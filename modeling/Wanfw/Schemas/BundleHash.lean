import Wanfw.Js.Arrays

/-!
# The hash of a bundle

`bundle-hash.ts`: the digest of a bundle directory. The files of the tree, sorted
by relative path, are fed into one SHA-256: the path, a NUL byte, the contents,
and then the next path at once. `hashBundleDir` is taken when a bundle is trusted
and again before a plugin runs (`child-runner.ts`, `runInvocation`).

A directory is modelled as `readdir` reports it: names with files, directories and
entries of another type (symbolic links, sockets), in some order. SHA-256 and
`localeCompare`, the order of the paths, are parameters.

Nothing separates the contents of a file from the path of the next one.
`hash_determines_iff` says which bundles their hash determines all the same: the
one without files, and those of a single file in whose contents no path that could
stand beside it is followed by a NUL byte.
-/

namespace Wanfw.Schemas

open Wanfw.Js

/-! ### Directories -/

/-- A name in a directory. -/
structure Name where
  chars : List Char
  nonempty : chars ≠ []
  noSlash : '/' ∉ chars
  noNul : '\x00' ∉ chars
  notDot : chars ≠ ['.'] ∧ chars ≠ ['.', '.']
  deriving DecidableEq

/-- A path below the bundle directory, by its names. -/
abbrev Path := List Name

/-- What `readdir` reports under a name. -/
inductive Tree where
  | file (contents : List UInt8)
  | dir (entries : List (Name × Tree))
  /-- Neither a file nor a directory. -/
  | other

mutual

/-- The names in each directory differ. -/
def Tree.Ok : Tree → Prop
  | .file _ => True
  | .dir es => (es.map (·.1)).Nodup ∧ EntriesOk es
  | .other => True

/-- `Tree.Ok` of every entry. -/
def EntriesOk : List (Name × Tree) → Prop
  | [] => True
  | (_, t) :: es => t.Ok ∧ EntriesOk es

end

/-- A bundle directory. -/
structure Bundle where
  entries : List (Name × Tree)
  ok : (Tree.dir entries).Ok

/-- `relative(base, path)`. -/
def relativePath (p : Path) : List Char := ['/'].intercalate (p.map Name.chars)

/-- A file: its path and its bytes. -/
abbrev File := Path × List UInt8

section Hash

variable (localeCompare : List Char → List Char → ℤ) (sha256 : List UInt8 → JsString)

/-- The files in the order of their relative paths. -/
def sortFiles (files : List File) : List File :=
  sortBy (fun a b => localeCompare (relativePath a.1) (relativePath b.1)) files

mutual

/-- `listFilesSorted`: the files below `p`, with their contents. -/
def listFilesSorted (p : Path) : Tree → List File
  | .file contents => [(p, contents)]
  | .dir entries => sortFiles localeCompare (listEntries p entries)
  | .other => []

/-- The loop over the entries of a directory. -/
def listEntries (p : Path) : List (Name × Tree) → List File
  | [] => []
  | (n, t) :: es => listFilesSorted (p ++ [n]) t ++ listEntries p es

end

/-- The files of a bundle, in the order in which they are hashed. -/
def Bundle.files (b : Bundle) : List File := listFilesSorted localeCompare [] (.dir b.entries)

/-- What is hashed for a list of files. -/
def stream (files : List File) : List UInt8 :=
  files.flatMap fun f => utf8Text (relativePath f.1) ++ 0 :: f.2

/-- `hashBundleDir`. -/
def hashBundleDir (b : Bundle) : JsString := sha256 (stream (b.files localeCompare))

/-- The check of `runInvocation`: the bundle about to run has the pinned hash. -/
def runsBundle (pinned : JsString) (b : Bundle) : Bool := hashBundleDir localeCompare sha256 b == pinned

end Hash

/-- The tree has a file with these contents under this path. -/
inductive Tree.Has : Tree → Path → List UInt8 → Prop where
  | file (contents : List UInt8) : Has (.file contents) [] contents
  | dir {entries : List (Name × Tree)} {n : Name} {t : Tree} {p : Path} {contents : List UInt8} :
      (n, t) ∈ entries → Has t p contents → Has (.dir entries) (n :: p) contents

/-- The files of a bundle, as a set of relative paths with bytes. -/
def Bundle.fileSet (b : Bundle) : Set (List Char × List UInt8) :=
  {f | ∃ p c, (Tree.dir b.entries).Has p c ∧ f = (relativePath p, c)}

/-! ### Paths -/

theorem relativePath_cons (n : Name) {p : Path} (hp : p ≠ []) :
    relativePath (n :: p) = n.chars ++ '/' :: relativePath p := by
  cases p with
  | nil => exact absurd rfl hp
  | cons m p => simp [relativePath, List.intercalate]

theorem relativePath_injective : Function.Injective fun p : Path => relativePath p := by
  intro p q h
  have hns : ∀ r : Path, ∀ l ∈ r.map Name.chars, '/' ∉ l := by
    intro r l hl
    obtain ⟨n, -, rfl⟩ := List.mem_map.mp hl
    exact n.noSlash
  have hchars : Function.Injective Name.chars := by
    rintro ⟨a, _, _, _, _⟩ ⟨b, _, _, _, _⟩ h
    cases h
    rfl
  have hempty : ∀ r : Path, r ≠ [] → relativePath r ≠ [] := by
    intro r hr
    cases r with
    | nil => exact absurd rfl hr
    | cons n r =>
      cases r with
      | nil => simpa [relativePath, List.intercalate] using n.nonempty
      | cons m r => rw [relativePath_cons n (by simp)]; simp
  by_cases hp : p = []
  · subst hp
    by_contra hq
    exact hempty q (fun hq' => hq hq'.symm) h.symm
  · by_cases hq : q = []
    · subst hq
      exact absurd h (hempty p hp)
    · have h' := congrArg (List.splitOn '/') h
      simp only [relativePath] at h'
      rw [List.splitOn_intercalate _ (hns p) (by simpa using hp), List.splitOn_intercalate _ (hns q) (by simpa using hq)] at h'
      exact hchars.list_map h'

theorem nul_not_mem_relativePath (p : Path) : '\x00' ∉ relativePath p := by
  induction p with
  | nil => simp [relativePath, List.intercalate]
  | cons n p ih =>
    cases p with
    | nil => simpa [relativePath, List.intercalate] using n.noNul
    | cons m p =>
      rw [relativePath_cons n (by simp)]
      simp only [List.mem_append, List.mem_cons, not_or]
      exact ⟨n.noNul, by decide, ih⟩

/-- Only the character NUL has a NUL byte. -/
theorem zero_mem_utf8EncodeChar {c : Char} (h : (0 : UInt8) ∈ String.utf8EncodeChar c) : c = '\x00' := by
  have hlt := char_toNat_lt c
  have hval : c.val.toNat = c.toNat := rfl
  have byte : ∀ n : ℕ, n < 256 → (0 : UInt8) = UInt8.ofNat n → n = 0 := by
    intro n hn h0
    have := congrArg UInt8.toNat h0
    simp at this
    omega
  unfold String.utf8EncodeChar at h
  simp only [hval] at h
  split_ifs at h with h1 h2 h3 <;> simp only [List.mem_cons, List.not_mem_nil, or_false] at h
  · have : c.toNat = 0 := byte _ (by omega) h
    rw [← Char.ofNat_toNat c, this]
  · rcases h with h | h
    · have := byte _ (by omega) h
      omega
    · have := byte _ (by omega) h
      omega
  · rcases h with h | h | h
    · have := byte _ (by omega) h
      omega
    · have := byte _ (by omega) h
      omega
    · have := byte _ (by omega) h
      omega
  · rcases h with h | h | h | h
    · have := byte _ (by omega) h
      omega
    · have := byte _ (by omega) h
      omega
    · have := byte _ (by omega) h
      omega
    · have := byte _ (by omega) h
      omega

theorem zero_not_mem_path (p : Path) : (0 : UInt8) ∉ utf8Text (relativePath p) := by
  intro h
  obtain ⟨c, hc, h0⟩ := List.mem_flatMap.mp h
  rw [zero_mem_utf8EncodeChar h0] at hc
  exact nul_not_mem_relativePath p hc

/-- The first NUL byte ends the path. -/
theorem path_append_inj {p q : Path} {x y : List UInt8}
    (h : utf8Text (relativePath p) ++ 0 :: x = utf8Text (relativePath q) ++ 0 :: y) : p = q ∧ x = y := by
  have key : ∀ {s t x y : List UInt8}, 0 ∉ s → 0 ∉ t → s ++ 0 :: x = t ++ 0 :: y → s = t ∧ x = y := by
    intro s
    induction s with
    | nil =>
      intro t x y _ ht h
      cases t with
      | nil => exact ⟨rfl, (List.cons.inj h).2⟩
      | cons b t => exact absurd (by simp [(List.cons.inj h).1]) ht
    | cons a s ih =>
      intro t x y hs ht h
      cases t with
      | nil => exact absurd (by simp [(List.cons.inj h).1]) hs
      | cons b t =>
        obtain ⟨rfl, h'⟩ := List.cons.inj h
        simp only [List.mem_cons, not_or] at hs ht
        obtain ⟨rfl, rfl⟩ := ih hs.2 ht.2 h'
        exact ⟨rfl, rfl⟩
  obtain ⟨h1, h2⟩ := key (zero_not_mem_path p) (zero_not_mem_path q) h
  exact ⟨relativePath_injective (utf8Text_inj h1), h2⟩

/-! ### The files of a tree -/

/-- Two files can stand in one tree: neither path is the other or leads through it. -/
def Beside (p q : Path) : Prop := ¬ p <+: q ∧ ¬ q <+: p

theorem Beside.symm {p q : Path} (h : Beside p q) : Beside q p := ⟨h.2, h.1⟩

theorem beside_cons {n : Name} {p q : Path} : Beside (n :: p) (n :: q) ↔ Beside p q := by
  simp [Beside, List.cons_prefix_cons]

theorem beside_of_ne {n m : Name} (h : n ≠ m) (p q : Path) : Beside (n :: p) (m :: q) := by
  simp [Beside, List.cons_prefix_cons, h, h.symm]

theorem beside_append {r p q : Path} (h : Beside p q) : Beside (r ++ p) (r ++ q) := by
  simpa [Beside, List.prefix_append_right_inj] using h

section Files

variable {localeCompare : List Char → List Char → ℤ}

theorem mem_sortFiles {f : File} {fs : List File} : f ∈ sortFiles localeCompare fs ↔ f ∈ fs :=
  (sortBy_perm _ fs).mem_iff

mutual

/-- The files below `p` have paths below `p`. -/
theorem listFilesSorted_path (p : Path) (t : Tree) {f : File} (h : f ∈ listFilesSorted localeCompare p t) :
    ∃ r, f.1 = p ++ r := by
  match t with
  | .file contents =>
    rw [List.mem_singleton.mp h]
    exact ⟨[], by simp⟩
  | .dir entries =>
    obtain ⟨n, -, r, hr⟩ := listEntries_path p entries (mem_sortFiles.mp h)
    exact ⟨n :: r, hr⟩
  | .other => cases h

theorem listEntries_path (p : Path) (es : List (Name × Tree)) {f : File} (h : f ∈ listEntries localeCompare p es) :
    ∃ n ∈ es.map (·.1), ∃ r, f.1 = p ++ n :: r := by
  match es with
  | [] => cases h
  | (n, t) :: es =>
    rcases List.mem_append.mp h with h | h
    · obtain ⟨r, hr⟩ := listFilesSorted_path (p ++ [n]) t h
      exact ⟨n, by simp, r, by simpa using hr⟩
    · obtain ⟨m, hm, r, hr⟩ := listEntries_path p es h
      exact ⟨m, by simp at hm ⊢; exact .inr hm, r, hr⟩

end

mutual

/-- The files of a tree can stand beside each other. -/
theorem listFilesSorted_beside (p : Path) (t : Tree) (hok : t.Ok) :
    (listFilesSorted localeCompare p t).Pairwise fun f g => Beside f.1 g.1 := by
  match t with
  | .file contents => exact List.pairwise_singleton _ _
  | .dir entries =>
    refine ((sortBy_perm _ _).pairwise_iff fun h => h.symm).mpr ?_
    exact listEntries_beside p entries hok.1 hok.2
  | .other => exact List.Pairwise.nil

theorem listEntries_beside (p : Path) (es : List (Name × Tree)) (hnd : (es.map (·.1)).Nodup) (hok : EntriesOk es) :
    (listEntries localeCompare p es).Pairwise fun f g => Beside f.1 g.1 := by
  match es with
  | [] => exact List.Pairwise.nil
  | (n, t) :: es =>
    rw [List.map_cons, List.nodup_cons] at hnd
    refine List.pairwise_append.mpr
      ⟨listFilesSorted_beside (p ++ [n]) t hok.1, listEntries_beside p es hnd.2 hok.2, ?_⟩
    intro f hf g hg
    obtain ⟨r, hr⟩ := listFilesSorted_path (p ++ [n]) t hf
    obtain ⟨m, hm, r', hr'⟩ := listEntries_path p es hg
    have hnm : n ≠ m := fun h => hnd.1 (h ▸ hm)
    rw [hr, hr', List.append_assoc]
    exact beside_append (beside_of_ne hnm r r')

end

variable (localeCompare) in
theorem Bundle.files_beside (b : Bundle) : (b.files localeCompare).Pairwise fun f g => Beside f.1 g.1 :=
  listFilesSorted_beside [] _ b.ok

mutual

/-- What is listed is what the tree has. -/
theorem mem_listFilesSorted (p q : Path) (c : List UInt8) (t : Tree) :
    (q, c) ∈ listFilesSorted localeCompare p t ↔ ∃ r, q = p ++ r ∧ t.Has r c := by
  match t with
  | .file contents =>
    simp only [listFilesSorted, List.mem_singleton, Prod.mk.injEq]
    constructor
    · rintro ⟨rfl, rfl⟩
      exact ⟨[], by simp, .file _⟩
    · rintro ⟨r, rfl, h⟩
      cases h
      exact ⟨by simp, rfl⟩
  | .dir entries =>
    rw [listFilesSorted, mem_sortFiles, mem_listEntries p q c entries]
    constructor
    · rintro ⟨n, t, r, hmem, rfl, h⟩
      exact ⟨n :: r, rfl, .dir hmem h⟩
    · rintro ⟨r, rfl, h⟩
      cases h with
      | dir hmem h => exact ⟨_, _, _, hmem, rfl, h⟩
  | .other =>
    simp only [listFilesSorted, List.not_mem_nil, false_iff, not_exists, not_and]
    intro r _ h
    cases h

theorem mem_listEntries (p q : Path) (c : List UInt8) (es : List (Name × Tree)) :
    (q, c) ∈ listEntries localeCompare p es ↔ ∃ n t r, (n, t) ∈ es ∧ q = p ++ n :: r ∧ t.Has r c := by
  match es with
  | [] => simp [listEntries]
  | (n, t) :: es =>
    rw [listEntries, List.mem_append, mem_listFilesSorted (p ++ [n]) q c t, mem_listEntries p q c es]
    constructor
    · rintro (⟨r, rfl, h⟩ | ⟨m, t', r, hmem, rfl, h⟩)
      · exact ⟨n, t, r, by simp, by simp, h⟩
      · exact ⟨m, t', r, by simp [hmem], rfl, h⟩
    · rintro ⟨m, t', r, hmem, rfl, h⟩
      rcases List.mem_cons.mp hmem with heq | hmem
      · obtain ⟨rfl, rfl⟩ := Prod.mk.inj heq
        exact .inl ⟨r, by simp, h⟩
      · exact .inr ⟨m, t', r, hmem, rfl, h⟩

end

variable (localeCompare) in
theorem Bundle.mem_files {b : Bundle} {p : Path} {c : List UInt8} :
    (p, c) ∈ b.files localeCompare ↔ (Tree.dir b.entries).Has p c := by
  rw [Bundle.files, mem_listFilesSorted]
  simp

variable (localeCompare) in
theorem Bundle.mem_fileSet {b : Bundle} {p : Path} {c : List UInt8} :
    (relativePath p, c) ∈ b.fileSet ↔ (p, c) ∈ b.files localeCompare := by
  rw [Bundle.mem_files localeCompare]
  constructor
  · rintro ⟨q, d, h, heq⟩
    obtain ⟨hp, rfl⟩ := Prod.mk.inj heq
    rwa [relativePath_injective hp]
  · intro h
    exact ⟨p, c, h, rfl⟩

/-- A bundle with one file lists that file. -/
theorem Bundle.files_eq_singleton {b : Bundle} {p : Path} {c : List UInt8}
    (h : ∀ q d, (Tree.dir b.entries).Has q d ↔ q = p ∧ d = c) : b.files localeCompare = [(p, c)] := by
  have hmem : ∀ f ∈ b.files localeCompare, f = (p, c) := by
    rintro ⟨q, d⟩ hf
    obtain ⟨rfl, rfl⟩ := (h q d).mp ((Bundle.mem_files localeCompare).mp hf)
    rfl
  have hpc : (p, c) ∈ b.files localeCompare := (Bundle.mem_files localeCompare).mpr ((h p c).mpr ⟨rfl, rfl⟩)
  have hb := b.files_beside localeCompare
  generalize b.files localeCompare = fs at hmem hpc hb
  match fs with
  | [] => cases hpc
  | [f] => rw [hmem f (by simp)]
  | f :: g :: fs =>
    have hfg := (List.pairwise_cons.mp hb).1 g (by simp)
    rw [hmem f (by simp), hmem g (by simp)] at hfg
    exact absurd (List.prefix_refl p) hfg.1

/-! ### Trees with one and with two files -/

/-- A tree with one file. -/
def graft : Path → List UInt8 → Tree
  | [], c => .file c
  | n :: p, c => .dir [(n, graft p c)]

/-- The entries of a directory with two files. -/
def graftBoth : Path → List UInt8 → Path → List UInt8 → List (Name × Tree)
  | n :: p, c, m :: q, d => if n = m then [(n, .dir (graftBoth p c q d))] else [(n, graft p c), (m, graft q d)]
  | _, _, _, _ => []

theorem graft_ok (p : Path) (c : List UInt8) : (graft p c).Ok := by
  induction p with
  | nil => trivial
  | cons n p ih => exact ⟨List.nodup_singleton _, ih, trivial⟩

theorem graftBoth_ok (p : Path) (c : List UInt8) (q : Path) (d : List UInt8) : (Tree.dir (graftBoth p c q d)).Ok := by
  induction p generalizing q with
  | nil => exact ⟨List.nodup_nil, trivial⟩
  | cons n p ih =>
    cases q with
    | nil => exact ⟨List.nodup_nil, trivial⟩
    | cons m q =>
      unfold graftBoth
      split
      · exact ⟨List.nodup_singleton _, ih q, trivial⟩
      · rename_i h
        exact ⟨by simpa using h, graft_ok p c, graft_ok q d, trivial⟩

theorem sortFiles_singleton (f : File) : sortFiles localeCompare [f] = [f] := rfl

theorem sortFiles_pair {f g : File} (h : localeCompare (relativePath f.1) (relativePath g.1) ≤ 0) :
    sortFiles localeCompare [f, g] = [f, g] := by
  simp [sortFiles, sortBy, h]

theorem listFilesSorted_graft (r p : Path) (c : List UInt8) :
    listFilesSorted localeCompare r (graft p c) = [(r ++ p, c)] := by
  induction p generalizing r with
  | nil => simp [graft, listFilesSorted]
  | cons n p ih => simp [graft, listFilesSorted, listEntries, ih, sortFiles_singleton]

theorem listEntries_graftBoth (r p : Path) (c : List UInt8) (q : Path) (d : List UInt8) (hb : Beside p q)
    (hle : localeCompare (relativePath (r ++ p)) (relativePath (r ++ q)) ≤ 0) :
    listEntries localeCompare r (graftBoth p c q d) = [(r ++ p, c), (r ++ q, d)] := by
  induction p generalizing r q with
  | nil => exact absurd (List.nil_prefix) hb.1
  | cons n p ih =>
    cases q with
    | nil => exact absurd (List.nil_prefix) hb.2
    | cons m q =>
      unfold graftBoth
      split
      · rename_i hnm
        subst hnm
        have hle' : localeCompare (relativePath (r ++ [n] ++ p)) (relativePath (r ++ [n] ++ q)) ≤ 0 := by
          simpa using hle
        rw [listEntries, listFilesSorted, ih (r ++ [n]) q (beside_cons.mp hb) hle', sortFiles_pair hle']
        simp [listEntries]
      · simp [listEntries, listFilesSorted_graft]

/-- The bundle with one file. -/
def oneFile (p : Path) (hp : p ≠ []) (c : List UInt8) : Bundle :=
  ⟨[(p.head hp, graft p.tail c)], List.nodup_singleton _, graft_ok _ _, trivial⟩

theorem oneFile_files (p : Path) (hp : p ≠ []) (c : List UInt8) : (oneFile p hp c).files localeCompare = [(p, c)] := by
  rw [Bundle.files, oneFile, listFilesSorted, listEntries, listFilesSorted_graft, listEntries]
  simp [sortFiles_singleton, List.cons_head_tail]

/-- The bundle with two files. -/
def twoFiles (p : Path) (c : List UInt8) (q : Path) (d : List UInt8) : Bundle :=
  ⟨graftBoth p c q d, graftBoth_ok p c q d⟩

theorem twoFiles_files {p q : Path} (hb : Beside p q) (hle : localeCompare (relativePath p) (relativePath q) ≤ 0)
    (c d : List UInt8) : (twoFiles p c q d).files localeCompare = [(p, c), (q, d)] := by
  rw [Bundle.files, twoFiles, listFilesSorted, listEntries_graftBoth [] p c q d hb (by simpa using hle)]
  exact sortFiles_pair hle

end Files

/-! ### Which bundles their hash determines -/

section Determined

variable (localeCompare : List Char → List Char → ℤ)

/-- Somewhere in the contents of the file `p` stands a path that could be its neighbour, not
before it in the order, followed by a NUL byte. -/
def HidesFile (p : Path) (contents : List UInt8) : Prop :=
  ∃ before q after, contents = before ++ (utf8Text (relativePath q) ++ 0 :: after) ∧ Beside p q ∧
    localeCompare (relativePath p) (relativePath q) ≤ 0

/-- The bundle has no file, or one file that hides no other. -/
def Determined (b : Bundle) : Prop :=
  (∀ p c, ¬ (Tree.dir b.entries).Has p c) ∨
    ∃ p c, (∀ q d, (Tree.dir b.entries).Has q d ↔ q = p ∧ d = c) ∧ ¬ HidesFile localeCompare p c

variable {localeCompare}

theorem stream_cons (f : File) (fs : List File) : stream (f :: fs) = utf8Text (relativePath f.1) ++ 0 :: (f.2 ++ stream fs) := by
  simp [stream]

theorem Bundle.fileSet_eq_of_files {b b' : Bundle} (h : b.files localeCompare = b'.files localeCompare) :
    b.fileSet = b'.fileSet := by
  ext ⟨s, c⟩
  constructor
  · rintro ⟨p, d, hp, heq⟩
    obtain ⟨rfl, rfl⟩ := Prod.mk.inj heq
    exact ⟨p, c, (Bundle.mem_files localeCompare).mp (h ▸ (Bundle.mem_files localeCompare).mpr hp), rfl⟩
  · rintro ⟨p, d, hp, heq⟩
    obtain ⟨rfl, rfl⟩ := Prod.mk.inj heq
    exact ⟨p, c, (Bundle.mem_files localeCompare).mp (h.symm ▸ (Bundle.mem_files localeCompare).mpr hp), rfl⟩

/-- The stream of a bundle is empty exactly when it has no file. -/
theorem stream_eq_nil {fs : List File} : stream fs = [] ↔ fs = [] := by
  cases fs with
  | nil => simp [stream]
  | cons f fs => simp [stream_cons]

theorem files_eq_nil {b : Bundle} (h : ∀ p c, ¬ (Tree.dir b.entries).Has p c) : b.files localeCompare = [] := by
  rw [List.eq_nil_iff_forall_not_mem]
  rintro ⟨p, c⟩ hf
  exact h p c ((Bundle.mem_files localeCompare).mp hf)

section Sorted

variable (htotal : ∀ a b, localeCompare a b ≤ 0 ∨ localeCompare b a ≤ 0)
  (htrans : ∀ a b c, localeCompare a b ≤ 0 → localeCompare b c ≤ 0 → localeCompare a c ≤ 0)

include htotal htrans

theorem Bundle.files_sorted (b : Bundle) : (b.files localeCompare).Pairwise fun f g =>
    localeCompare (relativePath f.1) (relativePath g.1) ≤ 0 := by
  have : Std.Total fun f g : File => localeCompare (relativePath f.1) (relativePath g.1) ≤ 0 := ⟨fun f g => htotal _ _⟩
  have : IsTrans File fun f g => localeCompare (relativePath f.1) (relativePath g.1) ≤ 0 := ⟨fun f g h => htrans _ _ _⟩
  exact List.pairwise_insertionSort _ _

/-- Bundles with the same files list them in the same order, where no two of these tie. -/
theorem files_eq_of_has {b b' : Bundle}
    (hties : ∀ f ∈ b.files localeCompare, ∀ g ∈ b.files localeCompare,
      localeCompare (relativePath f.1) (relativePath g.1) ≤ 0 → localeCompare (relativePath g.1) (relativePath f.1) ≤ 0 →
      f.1 = g.1)
    (h : ∀ p c, (Tree.dir b'.entries).Has p c ↔ (Tree.dir b.entries).Has p c) :
    b'.files localeCompare = b.files localeCompare := by
  have hmem : ∀ f, f ∈ b'.files localeCompare ↔ f ∈ b.files localeCompare := by
    rintro ⟨p, c⟩
    rw [Bundle.mem_files localeCompare, Bundle.mem_files localeCompare, h]
  -- no two files have one path
  have hpaths : ∀ b : Bundle, ((b.files localeCompare).map (·.1)).Nodup := by
    intro b
    refine List.pairwise_map.mpr ((b.files_beside localeCompare).imp ?_)
    intro f g hbeside heq
    exact hbeside.1 (heq ▸ List.prefix_refl _)
  refine List.Perm.eq_of_pairwise ?_ (b'.files_sorted htotal htrans) (b.files_sorted htotal htrans)
    ((List.perm_ext_iff_of_nodup (hpaths b').of_map (hpaths b).of_map).mpr hmem)
  intro f g hf hg hfg hgf
  have hf := (hmem f).mp hf
  exact List.inj_on_of_nodup_map (hpaths b) hf hg (hties f hf g hg hfg hgf)

/-- A determined bundle has the only stream of its kind. -/
theorem files_eq_of_stream {b b' : Bundle} (hb : Determined localeCompare b)
    (h : stream (b'.files localeCompare) = stream (b.files localeCompare)) :
    b'.files localeCompare = b.files localeCompare := by
  rcases hb with hnone | ⟨p, c, hone, hhides⟩
  · rw [files_eq_nil hnone] at h ⊢
    exact stream_eq_nil.mp h
  · rw [Bundle.files_eq_singleton hone] at h ⊢
    have hsorted := b'.files_sorted htotal htrans
    have hbeside := b'.files_beside localeCompare
    generalize b'.files localeCompare = fs at h hsorted hbeside
    match fs with
    | [] => exact absurd (stream_eq_nil.mp h.symm) (by simp)
    | [f] =>
      rw [stream_cons, stream_cons] at h
      obtain ⟨h1, h2⟩ := path_append_inj h
      simp only [stream, List.flatMap_nil, List.append_nil] at h1 h2
      rw [← h1, ← h2]
    | f :: g :: fs =>
      -- the contents go on with the path of a second file
      rw [stream_cons, stream_cons, stream_cons] at h
      obtain ⟨h1, h2⟩ := path_append_inj h
      simp only [stream, List.flatMap_nil, List.append_nil] at h1 h2
      refine absurd ⟨f.2, g.1, _, h2.symm, ?_, ?_⟩ hhides
      · exact h1 ▸ (List.pairwise_cons.mp hbeside).1 g (by simp)
      · exact h1 ▸ (List.pairwise_cons.mp hsorted).1 g (by simp)

end Sorted

/-- A bundle that is not determined shares its stream with another set of files. -/
theorem exists_of_not_determined {b : Bundle} (hb : ¬ Determined localeCompare b) :
    ∃ b' : Bundle, stream (b'.files localeCompare) = stream (b.files localeCompare) ∧ b'.fileSet ≠ b.fileSet := by
  have hbeside := b.files_beside localeCompare
  match hfs : b.files localeCompare with
  | [] =>
    refine absurd (.inl fun p c h => ?_) hb
    have := (Bundle.mem_files localeCompare).mpr h
    rw [hfs] at this
    cases this
  | [(p, c)] =>
    have hone : ∀ q d, (Tree.dir b.entries).Has q d ↔ q = p ∧ d = c := by
      intro q d
      rw [← Bundle.mem_files localeCompare, hfs]
      simp
    obtain ⟨before, q, after, hc, hpq, hle⟩ : HidesFile localeCompare p c := by
      by_contra hhides
      exact hb (.inr ⟨p, c, hone, hhides⟩)
    refine ⟨twoFiles p before q after, ?_, fun hset => ?_⟩
    · rw [twoFiles_files hpq hle, stream_cons, stream_cons, stream_cons, hc]
      simp [stream]
    · have hq : (relativePath q, after) ∈ b.fileSet := by
        rw [← hset, Bundle.mem_fileSet localeCompare, twoFiles_files hpq hle]
        simp
      rw [Bundle.mem_fileSet localeCompare, hfs, List.mem_singleton] at hq
      rw [(Prod.mk.inj hq).1] at hpq
      exact hpq.1 (List.prefix_refl p)
  | f :: g :: fs =>
    -- one file with the same bytes as all of them
    have hf : f.1 ≠ [] := by
      intro h0
      have := (List.pairwise_cons.mp (hfs ▸ hbeside)).1 g (by simp)
      rw [h0] at this
      exact this.1 (List.nil_prefix)
    refine ⟨oneFile f.1 hf (f.2 ++ stream (g :: fs)), ?_, fun hset => ?_⟩
    · rw [oneFile_files, stream_cons, stream_cons f (g :: fs)]
      simp [stream]
    · have hg : (relativePath g.1, g.2) ∈ b.fileSet := by
        rw [Bundle.mem_fileSet localeCompare, hfs]
        simp
      rw [← hset, Bundle.mem_fileSet localeCompare, oneFile_files, List.mem_singleton] at hg
      have := (List.pairwise_cons.mp (hfs ▸ hbeside)).1 g (by simp)
      rw [(Prod.mk.inj hg).1] at this
      exact this.1 (List.prefix_refl _)

/-- **Which bundles their hash determines.** For an order of paths that is total and transitive
and a hash without collisions on what is hashed: every bundle with the hash of `b`, and so every
bundle that runs under the hash of `b`, has the files of `b` exactly when `b` has no file, or one
file whose contents hide no other. -/
theorem hash_determines_iff (htotal : ∀ a b, localeCompare a b ≤ 0 ∨ localeCompare b a ≤ 0)
    (htrans : ∀ a b c, localeCompare a b ≤ 0 → localeCompare b c ≤ 0 → localeCompare a c ≤ 0)
    {sha256 : List UInt8 → JsString}
    (hsha : Set.InjOn sha256 (Set.range fun b : Bundle => stream (b.files localeCompare))) (b : Bundle) :
    ((∀ b', hashBundleDir localeCompare sha256 b' = hashBundleDir localeCompare sha256 b → b'.fileSet = b.fileSet) ↔
      Determined localeCompare b) ∧
    ((∀ b', runsBundle localeCompare sha256 (hashBundleDir localeCompare sha256 b) b' = true → b'.fileSet = b.fileSet) ↔
      Determined localeCompare b) := by
  have key : (∀ b', hashBundleDir localeCompare sha256 b' = hashBundleDir localeCompare sha256 b →
      b'.fileSet = b.fileSet) ↔ Determined localeCompare b := by
    constructor
    · intro h
      by_contra hb
      obtain ⟨b', hstream, hne⟩ := exists_of_not_determined hb
      exact hne (h b' (by rw [hashBundleDir, hstream, hashBundleDir]))
    · intro hb b' h
      have hstream := hsha ⟨b', rfl⟩ ⟨b, rfl⟩ h
      exact Bundle.fileSet_eq_of_files (files_eq_of_stream htotal htrans hb hstream)
  simp only [runsBundle, beq_iff_eq]
  exact ⟨key, key⟩

end Determined

/-- The name `a`. -/
def nameA : Name := ⟨['a'], by decide, by decide, by decide, by decide⟩

/-- The name `b`. -/
def nameB : Name := ⟨['b'], by decide, by decide, by decide, by decide⟩

/-- A function without collisions that has these digests, each behind its text. -/
def shaOf (digests : List (JsString × JsString)) (bytes : List UInt8) : JsString :=
  match digests.find? fun d => utf8 d.1 = bytes with
  | some d => d.2
  | none => 120 :: bytes.map UInt8.toUInt16

theorem shaOf_cases (digests : List (JsString × JsString)) (bytes : List UInt8) :
    (∃ d ∈ digests, utf8 d.1 = bytes ∧ shaOf digests bytes = d.2) ∨ shaOf digests bytes = 120 :: bytes.map UInt8.toUInt16 := by
  unfold shaOf
  cases hfind : digests.find? fun d => utf8 d.1 = bytes with
  | some d =>
    have htext := List.find?_some hfind
    exact .inl ⟨d, List.mem_of_find?_eq_some hfind, of_decide_eq_true htext, rfl⟩
  | none => exact .inr rfl

/-- No two texts have one digest, and no digest begins like the other values. -/
theorem shaOf_injective {digests : List (JsString × JsString)} (hdigests : (digests.map Prod.snd).Nodup)
    (hfirst : ∀ d ∈ digests, d.2.head? ≠ some 120) : Function.Injective (shaOf digests) := by
  have hother : ∀ d ∈ digests, ∀ s, d.2 ≠ 120 :: s := fun d hd s h => hfirst d hd (by rw [h]; rfl)
  intro x y h
  rcases shaOf_cases digests x with ⟨d, hd, rfl, hx⟩ | hx
  · rcases shaOf_cases digests y with ⟨e, he, rfl, hy⟩ | hy
    · rw [hx, hy] at h
      rw [List.inj_on_of_nodup_map hdigests hd he h]
    · rw [hx, hy] at h
      exact absurd h (hother d hd _)
  · rcases shaOf_cases digests y with ⟨e, he, rfl, hy⟩ | hy
    · rw [hx, hy] at h
      exact absurd h.symm (hother e he _)
    · rw [hx, hy] at h
      exact List.map_injective_iff.mpr (fun a b hab => UInt8.toUInt16_inj.mp hab) (List.cons.inj h).2

/-- The SHA-256 of the bytes of `a`, NUL, `x`. -/
def sampleDigest : JsString := js "8b86bced10290476e3cbf7ec75ec99dc5afd02120997525be1c62db47aa5c524"

/-- A function without collisions that has this digest. -/
def sampleSha : List UInt8 → JsString :=
  shaOf [(js "a\x00x", sampleDigest)]

theorem sampleSha_injective : Function.Injective sampleSha := shaOf_injective (by decide) (by decide)

/-- The bundle of one file `a` with the contents `x` is determined by its hash. -/
theorem hash_determines_one_file :
    hashBundleDir compareOrder sampleSha (oneFile [nameA] (by simp) [120]) = sampleDigest ∧
    ∀ b', hashBundleDir compareOrder sampleSha b' = hashBundleDir compareOrder sampleSha (oneFile [nameA] (by simp) [120]) →
      b'.fileSet = (oneFile [nameA] (by simp) [120]).fileSet := by
  refine ⟨by rw [hashBundleDir, oneFile_files]; rfl, ?_⟩
  refine ((hash_determines_iff ?_ ?_ sampleSha_injective.injOn _).1).mpr (.inr ⟨[nameA], [120], ?_, ?_⟩)
  · simpa only [compareOrder_le] using fun a b => le_total a b
  · simpa only [compareOrder_le] using fun a b c => le_trans
  · intro q d
    rw [← Bundle.mem_files compareOrder, oneFile_files]
    simp
  · rintro ⟨before, q, after, h, -⟩
    have : (0 : UInt8) ∈ [120] := by
      rw [h]
      simp
    revert this
    decide

/-- The files `a` and `b` with contents `x` and `y` hash like one file `a` that holds the second
path and its contents. -/
theorem hash_merges_files :
    (twoFiles [nameA] [120] [nameB] [121]).fileSet ≠ (oneFile [nameA] (by simp) [120, 98, 0, 121]).fileSet ∧
    ∀ sha256, hashBundleDir compareOrder sha256 (twoFiles [nameA] [120] [nameB] [121]) =
      hashBundleDir compareOrder sha256 (oneFile [nameA] (by simp) [120, 98, 0, 121]) := by
  have hb : Beside [nameA] [nameB] := beside_of_ne (by decide) [] []
  have hle : compareOrder (relativePath [nameA]) (relativePath [nameB]) ≤ 0 := by decide
  constructor
  · intro h
    have : (relativePath [nameB], [121]) ∈ (twoFiles [nameA] [120] [nameB] [121]).fileSet := by
      rw [Bundle.mem_fileSet compareOrder, twoFiles_files hb hle]
      simp
    rw [h, Bundle.mem_fileSet compareOrder, oneFile_files] at this
    revert this
    decide
  · intro sha256
    rw [hashBundleDir, hashBundleDir, twoFiles_files hb hle, oneFile_files]
    rfl

end Wanfw.Schemas
