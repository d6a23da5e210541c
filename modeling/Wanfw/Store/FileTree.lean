import Mathlib.Data.List.Dedup
import Mathlib.Data.List.Infix

/-!
# File trees

What is at a path, which is a list of names: a directory, a file, or nothing. The root is a
directory, and so is everything that has something below it (`FileTree.closed`).

The operations are partial, as those of a file system are. Each has one lemma that says what
is where afterwards: `node_mkdirp`, `node_writeFile`, `node_rename`, `node_remove`. A
directory is renamed with all that is below it.
-/

namespace Wanfw.Store

/-- What a path leads to. -/
inductive Node (κ : Type) where
  | dir
  | file (c : κ)
  deriving DecidableEq

/-- A file tree with names `ν` and contents `κ`. -/
structure FileTree (ν κ : Type) where
  node : List ν → Option (Node κ)
  /-- All paths that lead somewhere, and maybe others. -/
  paths : List (List ν)
  mem_paths : ∀ p, node p ≠ none → p ∈ paths
  root : node [] = some .dir
  closed : ∀ p n, node (p ++ [n]) ≠ none → node p = some .dir

namespace FileTree

variable {ν κ : Type} {t t' : FileTree ν κ} {p q r : List ν} {n : ν} {c : κ}

/-- Only the root. -/
def empty : FileTree ν κ where
  node p := if p.isEmpty then some .dir else none
  paths := [[]]
  mem_paths p := by cases p <;> simp
  root := rfl
  closed p n := by simp

/-- A directory is there. -/
def isDir (t : FileTree ν κ) (p : List ν) : Bool :=
  match t.node p with
  | some .dir => true
  | _ => false

/-- A file is there. -/
def isFile (t : FileTree ν κ) (p : List ν) : Bool :=
  match t.node p with
  | some (.file _) => true
  | _ => false

/-- The contents of a file. -/
def readFile (t : FileTree ν κ) (p : List ν) : Option κ :=
  match t.node p with
  | some (.file c) => some c
  | _ => none

@[simp] theorem isDir_iff : t.isDir p = true ↔ t.node p = some .dir := by
  unfold isDir
  split <;> simp_all

theorem isFile_iff : t.isFile p = true ↔ ∃ c, t.node p = some (.file c) := by
  unfold isFile
  split <;> simp_all

@[simp] theorem readFile_iff : t.readFile p = some c ↔ t.node p = some (.file c) := by
  unfold readFile
  split <;> simp_all

/-- Above everything that is there, there are directories. -/
theorem dir_of_append {rest : List ν} (hrest : rest ≠ []) (h : t.node (p ++ rest) ≠ none) : t.node p = some .dir := by
  induction rest using List.reverseRecOn with
  | nil => exact absurd rfl hrest
  | append_singleton rest n ih =>
    have hdir := t.closed (p ++ rest) n (by rwa [List.append_assoc])
    cases rest with
    | nil => rwa [List.append_nil] at hdir
    | cons m rest => exact ih (List.cons_ne_nil _ _) (by simp [hdir])

theorem not_prefix_of_concat (h : ¬ p <+: q ++ [n]) : ¬ p <+: q := fun hp => h (hp.trans (List.prefix_append _ _))

section Operations

variable [DecidableEq ν]

/-! ### Directories -/

/-- `mkdir -p`: all directories down to a path; a file on the way is in its way. -/
def mkdirp (t : FileTree ν κ) (p : List ν) : Option (FileTree ν κ) :=
  if p.inits.any t.isFile then none
  else some {
    node := fun q => if q <+: p then some .dir else t.node q
    paths := p.inits ++ t.paths
    mem_paths := by
      intro q hq
      by_cases hprefix : q <+: p
      · exact List.mem_append_left _ ((List.mem_inits q p).mpr hprefix)
      · rw [if_neg hprefix] at hq
        exact List.mem_append_right _ (t.mem_paths q hq)
    root := if_pos (List.nil_prefix)
    closed := by
      intro q n hq
      by_cases hprefix : q <+: p
      · exact if_pos hprefix
      · rw [if_neg fun h => hprefix ((List.prefix_append q [n]).trans h)] at hq
        rw [if_neg hprefix]
        exact t.closed q n hq }

theorem node_mkdirp (h : t.mkdirp p = some t') (q : List ν) : t'.node q = if q <+: p then some .dir else t.node q := by
  unfold mkdirp at h
  split at h
  · cases h
  · cases h
    rfl

/-- Below a file there are no directories to be made. -/
theorem mkdirp_below_file (h : t.node q = some (.file c)) (hq : q <+: p) : t.mkdirp p = none := by
  have hfile : p.inits.any t.isFile = true :=
    List.any_eq_true.mpr ⟨q, (List.mem_inits q p).mpr hq, isFile_iff.mpr ⟨c, h⟩⟩
  rw [mkdirp, if_pos hfile]

/-- Where no file is in the way, the directories are made. -/
theorem exists_mkdirp (h : ∀ q, q <+: p → ∀ c, t.node q ≠ some (.file c)) : ∃ t', t.mkdirp p = some t' := by
  rw [mkdirp, if_neg]
  · exact ⟨_, rfl⟩
  · rw [List.any_eq_true]
    rintro ⟨q, hq, hfile⟩
    obtain ⟨c, hc⟩ := isFile_iff.mp hfile
    exact h q ((List.mem_inits q p).mp hq) c hc

/-- The name of the entry of `p` that a path leads through. -/
def child (p r : List ν) : Option ν := if p <+: r then (r.drop p.length).head? else none

/-- The entries of a directory. -/
def entries (t : FileTree ν κ) (p : List ν) : List ν :=
  (t.paths.filterMap (child p)).dedup.filter fun n => (t.node (p ++ [n])).isSome

theorem mem_entries : n ∈ t.entries p ↔ t.node (p ++ [n]) ≠ none := by
  unfold entries
  rw [List.mem_filter, List.mem_dedup, List.mem_filterMap, Option.isSome_iff_ne_none, and_iff_right_of_imp]
  intro h
  refine ⟨p ++ [n], t.mem_paths _ h, ?_⟩
  rw [child, if_pos (List.prefix_append _ _), List.drop_left]
  rfl

theorem nodup_entries (t : FileTree ν κ) (p : List ν) : (t.entries p).Nodup := (List.nodup_dedup _).filter _

/-- `readdir`. -/
def readdir (t : FileTree ν κ) (p : List ν) : Option (List ν) := if t.isDir p then some (t.entries p) else none

/-! ### Files -/

/-- Write a file, in a directory that is there. -/
def writeFile (t : FileTree ν κ) (p : List ν) (c : κ) : Option (FileTree ν κ) :=
  if h : p ≠ [] ∧ t.isDir p.dropLast = true ∧ t.isDir p = false then some {
    node := fun q => if q = p then some (.file c) else t.node q
    paths := p :: t.paths
    mem_paths := by
      intro q hq
      by_cases heq : q = p
      · exact List.mem_cons.mpr (.inl heq)
      · rw [if_neg heq] at hq
        exact List.mem_cons_of_mem _ (t.mem_paths q hq)
    root := by rw [if_neg h.1.symm, t.root]
    closed := by
      obtain ⟨hne, hparent, hnot⟩ := h
      intro q n hq
      by_cases heq : q ++ [n] = p
      · subst heq
        rw [List.dropLast_concat, isDir_iff] at hparent
        rw [if_neg (by simp), hparent]
      · rw [if_neg heq] at hq
        have hdir := t.closed q n hq
        rw [if_neg, hdir]
        rintro rfl
        rw [isDir_iff.mpr hdir] at hnot
        cases hnot }
  else none

theorem node_writeFile (h : t.writeFile p c = some t') (q : List ν) :
    t'.node q = if q = p then some (.file c) else t.node q := by
  unfold writeFile at h
  split at h
  · cases h
    rfl
  · cases h

/-- A file can be written where no directory is. -/
theorem exists_writeFile (hne : p ≠ []) (hparent : t.node p.dropLast = some .dir) (hnot : t.node p ≠ some .dir) (c : κ) :
    ∃ t', t.writeFile p c = some t' := by
  have hfalse : t.isDir p = false := by
    rw [← Bool.not_eq_true, isDir_iff]
    exact hnot
  rw [writeFile, dif_pos ⟨hne, isDir_iff.mpr hparent, hfalse⟩]
  exact ⟨_, rfl⟩

/-! ### Moving and removing -/

/-- Something may be put in the place of what is there: anything where there is nothing, a directory in the place of an
empty one, and a file in the place of another. -/
def replaces (t : FileTree ν κ) (p q : List ν) : Bool :=
  match t.node p, t.node q with
  | none, _ => false
  | some _, none => true
  | some .dir, some .dir => (t.entries q).isEmpty
  | some (.file _), some (.file _) => true
  | _, _ => false

/-- Rename what is at `p` to `q`, which is not below it. -/
def rename (t : FileTree ν κ) (p q : List ν) : Option (FileTree ν κ) :=
  if h : ¬ p <+: q ∧ q ≠ [] ∧ t.isDir q.dropLast = true ∧ t.replaces p q = true then some {
    node := fun r => if q <+: r then t.node (p ++ r.drop q.length) else if p <+: r then none else t.node r
    paths := (t.paths.map fun r => if p <+: r then q ++ r.drop p.length else r) ++ t.paths
    mem_paths := by
      intro r hr
      by_cases hq : q <+: r
      · rw [if_pos hq] at hr
        obtain ⟨rest, rfl⟩ := hq
        rw [List.drop_left] at hr
        refine List.mem_append_left _ (List.mem_map.mpr ⟨_, t.mem_paths _ hr, ?_⟩)
        rw [if_pos (List.prefix_append _ _), List.drop_left]
      · rw [if_neg hq] at hr
        split at hr
        · exact absurd rfl hr
        · exact List.mem_append_right _ (t.mem_paths r hr)
    root := by
      have hp : ¬ p <+: [] := fun hp => h.1 (hp.trans List.nil_prefix)
      rw [if_neg (by simpa using h.2.1), if_neg hp, t.root]
    closed := by
      obtain ⟨hbelow, hne, hparent, -⟩ := h
      intro r n hr
      by_cases hq : q <+: r ++ [n]
      · rw [if_pos hq] at hr
        rcases List.prefix_concat_iff.mp hq with rfl | hq
        · -- the new name itself: its directory was there before
          rw [List.dropLast_concat, isDir_iff] at hparent
          have hlong : ¬ r ++ [n] <+: r := fun hprefix => absurd hprefix.length_le (by simp)
          rw [if_neg hlong, if_neg (not_prefix_of_concat hbelow), hparent]
        · obtain ⟨rest, rfl⟩ := hq
          rw [List.append_assoc, List.drop_left, ← List.append_assoc] at hr
          rw [if_pos (List.prefix_append _ _), List.drop_left]
          exact t.closed _ n hr
      · rw [if_neg hq] at hr
        split at hr
        · exact absurd rfl hr
        · rename_i hp
          rw [if_neg (not_prefix_of_concat hq), if_neg (not_prefix_of_concat hp)]
          exact t.closed r n hr }
  else none

theorem node_rename (h : t.rename p q = some t') (r : List ν) :
    t'.node r = if q <+: r then t.node (p ++ r.drop q.length) else if p <+: r then none else t.node r := by
  unfold rename at h
  split at h
  · cases h
    rfl
  · cases h

/-- A file can be renamed within the directories that are there, unless a directory is in its way. -/
theorem exists_rename_file (hp : t.node p = some (.file c)) (hbelow : ¬ p <+: q) (hne : q ≠ [])
    (hparent : t.node q.dropLast = some .dir) (hq : t.node q ≠ some .dir) : ∃ t', t.rename p q = some t' := by
  have hreplaces : t.replaces p q = true := by
    unfold replaces
    rw [hp]
    cases hnode : t.node q with
    | none => rfl
    | some x =>
      cases x with
      | dir => exact absurd hnode hq
      | file c' => rfl
  rw [rename, dif_pos ⟨hbelow, hne, isDir_iff.mpr hparent, hreplaces⟩]
  exact ⟨_, rfl⟩

/-- `rm -rf`, of anything but the root. -/
def remove (t : FileTree ν κ) (p : List ν) : FileTree ν κ :=
  if h : p = [] then t
  else {
    node := fun q => if p <+: q then none else t.node q
    paths := t.paths
    mem_paths := by
      intro q hq
      split at hq
      · exact absurd rfl hq
      · exact t.mem_paths q hq
    root := by rw [if_neg (by simpa using h), t.root]
    closed := by
      intro q n hq
      split at hq
      · exact absurd rfl hq
      · rename_i hp
        rw [if_neg (not_prefix_of_concat hp)]
        exact t.closed q n hq }

theorem node_remove (hp : p ≠ []) (q : List ν) : (t.remove p).node q = if p <+: q then none else t.node q := by
  unfold remove
  rw [dif_neg hp]

end Operations

end FileTree

end Wanfw.Store
