import Wanfw.Js.Strings

/-!
# Paths

`node:path` on POSIX: `normalize` resolves `.` and `..` and collapses slashes, `join` puts a
slash between its arguments and normalizes. A normal path is a number of `..` and then names
(`Normal`); `normalize` walks along the parts of a path and keeps such a value.

`walk_eq_climb`: to walk on from a place is to climb as far as the relative path climbs, and
then to go down its names. `within_join_iff` says when that ends below the place again.
-/

namespace Wanfw.Js

/-- A normal path, without its slashes: how often it goes up, and the names it goes down. -/
structure Normal where
  ups : ℕ
  names : List JsString
  deriving DecidableEq

/-- `isAbsolute(path)`. -/
def isAbsolute (path : JsString) : Bool := startsWith path (js "/")

namespace Normal

/-- The next part of a path. Above the root there is nothing. -/
def push (absolute : Bool) (n : Normal) (part : JsString) : Normal :=
  if part = [] ∨ part = js "." then n
  else if part = js ".." then
    if n.names ≠ [] then ⟨n.ups, n.names.dropLast⟩
    else if absolute then n
    else ⟨n.ups + 1, []⟩
  else ⟨n.ups, n.names ++ [part]⟩

/-- The parts of a path, from a place on. -/
def walk (absolute : Bool) (n : Normal) (parts : List JsString) : Normal := parts.foldl (push absolute) n

/-- The parts of the normal path. -/
def parts (n : Normal) : List JsString := List.replicate n.ups (js "..") ++ n.names

/-- Where a relative path leads from a place. -/
def climb (absolute : Bool) (n r : Normal) : Normal where
  ups := if absolute then n.ups else n.ups + (r.ups - n.names.length)
  names := n.names.take (n.names.length - r.ups) ++ r.names

/-- A name is no part with a meaning of its own. -/
def IsName (part : JsString) : Prop := part ≠ [] ∧ part ≠ js "." ∧ part ≠ js ".." ∧ (47 : UInt16) ∉ part

/-- What `walk` keeps. -/
structure Ok (absolute : Bool) (n : Normal) : Prop where
  names : ∀ s ∈ n.names, IsName s
  ups : absolute = true → n.ups = 0

/-- Another place is this one, or below it. -/
def Below (n m : Normal) : Prop := m.ups = n.ups ∧ n.names <+: m.names

/-- Another place is below this one. -/
def Inside (n m : Normal) : Prop := m.ups = n.ups ∧ ∃ x xs, m.names = n.names ++ x :: xs

/-- Another place is an entry of this one. -/
def Entry (n m : Normal) : Prop := m.ups = n.ups ∧ ∃ x, m.names = n.names ++ [x]

end Normal

/-- The normal form of a path. -/
def normal (path : JsString) : Normal := Normal.walk (isAbsolute path) ⟨0, []⟩ (split path 47)

/-- The normal form of a path that is taken as a relative one. -/
def relative (path : JsString) : Normal := Normal.walk false ⟨0, []⟩ (split path 47)

/-- `normalize(path)`. -/
def normalize (path : JsString) : JsString :=
  let body := join (normal path).parts (js "/")
  if body = [] then
    if isAbsolute path then js "/" else if endsWith path (js "/") then js "./" else js "."
  else (if isAbsolute path then js "/" else []) ++ body ++ (if endsWith path (js "/") then js "/" else [])

/-- `join(...paths)`. -/
def joinPaths (paths : List JsString) : JsString := normalize (join (paths.filter fun s => s ≠ []) (js "/"))

/-- `join(dir, path)`. -/
def joinPath (dir path : JsString) : JsString := normalize (join ([dir, path].filter fun s => s ≠ []) (js "/"))

/-! ### Walking -/

namespace Normal

variable {absolute : Bool} {n r : Normal} {part : JsString}

theorem push_name (h : IsName part) : push absolute n part = ⟨n.ups, n.names ++ [part]⟩ := by
  obtain ⟨hnil, hdot, hdots, -⟩ := h
  simp [push, hnil, hdot, hdots]

theorem isName_of_length {s : JsString} (hlength : 2 < s.length) (hslash : (47 : UInt16) ∉ s) : IsName s := by
  refine ⟨fun h => ?_, fun h => ?_, fun h => ?_, hslash⟩
  · rw [h] at hlength
    exact absurd hlength (by decide)
  · rw [h] at hlength
    exact absurd hlength (by decide)
  · rw [h] at hlength
    exact absurd hlength (by decide)

theorem Ok.push (h : Ok absolute n) (hpart : (47 : UInt16) ∉ part) : Ok absolute (push absolute n part) := by
  unfold Normal.push
  split
  · exact h
  · rename_i hplain
    rw [not_or] at hplain
    split
    · split
      · exact ⟨fun s hs => h.names s (List.mem_of_mem_dropLast hs), h.ups⟩
      · split
        · exact h
        · rename_i hrelative
          exact ⟨by simp, fun hfalse => absurd hfalse hrelative⟩
    · rename_i hdots
      refine ⟨fun s hs => ?_, h.ups⟩
      rcases List.mem_append.mp hs with hs | hs
      · exact h.names s hs
      · rw [List.mem_singleton.mp hs]
        exact ⟨hplain.1, hplain.2, hdots, hpart⟩

theorem Ok.walk (h : Ok absolute n) {parts : List JsString} (hparts : ∀ s ∈ parts, (47 : UInt16) ∉ s) :
    Ok absolute (walk absolute n parts) := by
  induction parts generalizing n with
  | nil => exact h
  | cons s parts ih => exact ih (h.push (hparts s (by simp))) fun s' hs' => hparts s' (by simp [hs'])

theorem walk_append (parts parts' : List JsString) :
    walk absolute n (parts ++ parts') = walk absolute (walk absolute n parts) parts' := List.foldl_append

theorem walk_singleton (absolute : Bool) (n : Normal) (part : JsString) : walk absolute n [part] = push absolute n part := rfl

theorem walk_names (ups : ℕ) (names names' : List JsString) (h : ∀ s ∈ names', IsName s) :
    walk absolute ⟨ups, names⟩ names' = ⟨ups, names ++ names'⟩ := by
  induction names' generalizing names with
  | nil => simp [walk]
  | cons s names' ih =>
    change walk absolute (push absolute ⟨ups, names⟩ s) names' = _
    rw [push_name (h s (by simp)), ih _ fun s' hs' => h s' (by simp [hs']), List.append_assoc]
    rfl

/-- The parts of a normal path lead to it. -/
theorem walk_parts (h : Ok absolute n) : walk absolute ⟨0, []⟩ n.parts = n := by
  have hups : ∀ k m, absolute = false → walk absolute ⟨m, []⟩ (List.replicate k (js "..")) = ⟨m + k, []⟩ := by
    intro k m hrelative
    induction k generalizing m with
    | zero => rfl
    | succ k ih =>
      rw [List.replicate_succ]
      change walk absolute (push absolute ⟨m, []⟩ (js "..")) _ = _
      have hpush : push absolute ⟨m, []⟩ (js "..") = ⟨m + 1, []⟩ := by
        simp only [push, hrelative]
        rfl
      rw [hpush, ih, Nat.add_right_comm, Nat.add_assoc]
  rw [parts, walk_append]
  cases habs : absolute with
  | true =>
    rw [h.ups habs]
    exact (walk_names 0 [] n.names h.names).trans (by rw [← h.ups habs, List.nil_append])
  | false =>
    rw [← habs, hups _ _ habs, walk_names _ _ _ h.names, Nat.zero_add, List.nil_append]

theorem climb_push (part : JsString) :
    push absolute (climb absolute n r) part = climb absolute n (push false r part) := by
  unfold push
  split
  · rfl
  · split
    · by_cases hr : r.names = []
      · -- the relative path climbs on
        have hr' : ¬ r.names ≠ [] := not_not.mpr hr
        have hnames : (climb absolute n r).names = n.names.take (n.names.length - r.ups) := by simp [climb, hr]
        by_cases hlt : r.ups < n.names.length
        · have hne : (climb absolute n r).names ≠ [] := by
            rw [hnames]
            exact List.ne_nil_of_length_pos (by rw [List.length_take]; omega)
          rw [if_pos hne, if_neg hr', hnames, List.dropLast_eq_take, List.length_take, List.take_take,
            show min (min (n.names.length - r.ups) n.names.length - 1) (n.names.length - r.ups) =
              n.names.length - (r.ups + 1) by omega]
          simp only [climb, Bool.false_eq_true, if_false, List.append_nil]
          rw [show r.ups - n.names.length = 0 by omega, show r.ups + 1 - n.names.length = 0 by omega]
        · have hnil : ¬ (climb absolute n r).names ≠ [] := by
            rw [hnames, show n.names.length - r.ups = 0 by omega, List.take_zero]
            simp
          rw [if_neg hnil, if_neg hr']
          cases absolute with
          | true => simp [climb, hr, show n.names.length - r.ups = 0 by omega, show n.names.length - (r.ups + 1) = 0 by omega]
          | false =>
            simp only [climb, Bool.false_eq_true, if_false, List.append_nil]
            rw [show n.names.length - (r.ups + 1) = 0 by omega, List.take_zero, Normal.mk.injEq]
            exact ⟨by omega, rfl⟩
      · have hne : (climb absolute n r).names ≠ [] := by simp [climb, hr]
        rw [if_pos hne, if_pos hr]
        simp only [climb]
        rw [List.dropLast_append_of_ne_nil hr]
    · simp only [climb, List.append_assoc]

/-- **Walking is climbing.** Where the parts of a relative path lead from a place. -/
theorem walk_eq_climb (absolute : Bool) (n : Normal) (parts : List JsString) :
    walk absolute n parts = climb absolute n (walk false ⟨0, []⟩ parts) := by
  induction parts using List.reverseRecOn with
  | nil => simp [walk, climb]
  | append_singleton parts part ih =>
    rw [walk_append, walk_append, ih]
    exact climb_push part

/-- What a relative path does that does not climb out of a place, or comes back into it: it climbs, and goes down
by the names it has climbed and then by `rest`. -/
def Returns (absolute : Bool) (n r : Normal) (rest : List JsString) : Prop :=
  (absolute = true ∨ r.ups ≤ n.names.length) ∧ r.names = n.names.drop (n.names.length - r.ups) ++ rest

theorem climb_names_iff {rest : List JsString} :
    (climb absolute n r).ups = n.ups ∧ (climb absolute n r).names = n.names ++ rest ↔ Returns absolute n r rest := by
  refine and_congr ?_ ?_
  · cases absolute with
    | true => simp [climb]
    | false => simp [climb, Nat.sub_eq_zero_iff_le]
  · have hsame : n.names.take (n.names.length - r.ups) ++ (n.names.drop (n.names.length - r.ups) ++ rest) =
        n.names ++ rest := by rw [← List.append_assoc, List.take_append_drop]
    rw [← hsame]
    exact List.append_right_inj _

/-- To climb twice is to climb once. -/
theorem climb_climb (absolute : Bool) (n : Normal) (path path' : List JsString) :
    climb absolute (climb absolute n (walk false ⟨0, []⟩ path)) (walk false ⟨0, []⟩ path') =
      climb absolute n (climb false (walk false ⟨0, []⟩ path) (walk false ⟨0, []⟩ path')) := by
  rw [← walk_eq_climb, ← walk_eq_climb, ← walk_eq_climb, ← walk_append, ← walk_append, walk_eq_climb]

/-- When a relative path ends below the place it starts from. -/
theorem inside_climb_iff : n.Inside (climb absolute n r) ↔ ∃ x xs, Returns absolute n r (x :: xs) := by
  simp only [← climb_names_iff, Inside, exists_and_left]

/-- When a relative path ends at an entry of the place it starts from. -/
theorem entry_climb_iff : n.Entry (climb absolute n r) ↔ ∃ x, Returns absolute n r [x] := by
  simp only [← climb_names_iff, Entry, exists_and_left]

end Normal

/-! ### Normalizing -/

theorem normal_ok (path : JsString) : Normal.Ok (isAbsolute path) (normal path) :=
  Normal.Ok.walk ⟨by simp, fun _ => rfl⟩ fun _ hs => (mem_split hs).1

theorem split_slash_cons (s : JsString) : split (js "/" ++ s) 47 = [] :: split s 47 := split_append_cons List.not_mem_nil s

theorem split_slash_append (a b : JsString) : split (a ++ js "/" ++ b) 47 = split a 47 ++ split b 47 := by
  rw [List.append_assoc]
  exact List.splitOn_append_cons_self a b

theorem split_concat_slash (s : JsString) : split (s ++ js "/") 47 = split s 47 ++ [[]] :=
  List.splitOn_append_cons_self s []

/-- Empty parts at the ends lead nowhere. -/
theorem walk_slashes (absolute before after : Bool) (s : JsString) :
    Normal.walk absolute ⟨0, []⟩ (split ((if before then js "/" else []) ++ s ++ (if after then js "/" else [])) 47) =
      Normal.walk absolute ⟨0, []⟩ (split s 47) := by
  have hnil : ∀ n, Normal.push absolute n [] = n := fun n => by simp [Normal.push]
  have hafter : ∀ t, Normal.walk absolute ⟨0, []⟩ (split (t ++ if after then js "/" else []) 47) =
      Normal.walk absolute ⟨0, []⟩ (split t 47) := by
    intro t
    cases after with
    | false => simp
    | true =>
      rw [if_pos rfl, split_concat_slash, Normal.walk_append]
      exact hnil _
  rw [hafter]
  cases before with
  | false => rfl
  | true =>
    rw [if_pos rfl, split_slash_cons]
    exact congrArg (fun n => Normal.walk absolute n (split s 47)) (hnil _)

theorem split_join_parts {absolute : Bool} {n : Normal} (h : Normal.Ok absolute n) (hne : n.parts ≠ []) :
    split (join n.parts (js "/")) 47 = n.parts := by
  refine List.splitOn_intercalate _ (fun s hs => ?_) hne
  rcases List.mem_append.mp hs with hs | hs
  · rw [(List.mem_replicate.mp hs).2]
    decide
  · exact (h.names s hs).2.2.2

theorem nil_not_mem_parts {absolute : Bool} {n : Normal} (h : Normal.Ok absolute n) : [] ∉ n.parts := by
  rw [Normal.parts, List.mem_append, not_or]
  refine ⟨fun hmem => ?_, fun hmem => (h.names [] hmem).1 rfl⟩
  have := (List.mem_replicate.mp hmem).2
  revert this
  decide

theorem join_parts_eq_nil {absolute : Bool} {n : Normal} (h : Normal.Ok absolute n) (hnil : join n.parts (js "/") = []) :
    n = ⟨0, []⟩ := by
  have hparts : n.parts = [] := by
    by_contra hne
    have hsplit := split_join_parts h hne
    rw [hnil] at hsplit
    exact nil_not_mem_parts h (hsplit ▸ List.mem_singleton_self _)
  obtain ⟨ups, names⟩ := n
  simp only [Normal.parts, List.append_eq_nil_iff, List.replicate_eq_nil_iff] at hparts
  rw [hparts.1, hparts.2]

theorem isAbsolute_join_parts {absolute : Bool} {n : Normal} (h : Normal.Ok absolute n) :
    isAbsolute (join n.parts (js "/")) = false := by
  by_contra habs
  obtain ⟨t, ht⟩ := startsWith_iff.mp ((Bool.not_eq_false _).mp habs)
  by_cases hne : n.parts = []
  · rw [hne] at ht
    cases ht
  · have hsplit := split_join_parts h hne
    rw [ht, split_slash_cons] at hsplit
    exact nil_not_mem_parts h (hsplit ▸ List.mem_cons_self)

/-- **Normalizing** does not change where a path leads. -/
theorem normal_normalize (path : JsString) :
    normal (normalize path) = normal path ∧ isAbsolute (normalize path) = isAbsolute path := by
  have hok := normal_ok path
  by_cases hnil : join (normal path).parts (js "/") = []
  · rw [join_parts_eq_nil hok hnil]
    simp only [normalize, hnil, if_true]
    cases isAbsolute path with
    | true =>
      rw [if_pos rfl]
      decide
    | false =>
      cases endsWith path (js "/") with
      | true => decide
      | false => decide
  · have habs : isAbsolute (normalize path) = isAbsolute path := by
      simp only [normalize, hnil, if_false]
      cases h : isAbsolute path with
      | true => exact startsWith_iff.mpr ⟨_, by rw [if_pos rfl, List.append_assoc]⟩
      | false =>
        have hbody := isAbsolute_join_parts hok
        obtain ⟨u, t, ht⟩ := List.exists_cons_of_ne_nil hnil
        rw [ht] at hbody ⊢
        exact hbody
    refine ⟨?_, habs⟩
    have hne : (normal path).parts ≠ [] := fun h => hnil (by rw [h]; rfl)
    rw [normal, habs]
    simp only [normalize, hnil, if_false]
    rw [walk_slashes, split_join_parts hok hne, Normal.walk_parts hok]

/-- The names of a normalized path hold what it holds, apart from dots and slashes. -/
theorem mem_normalize_iff {u : UInt16} (hu : u ∉ js "./") {path : JsString} :
    u ∈ normalize path ↔ ∃ name ∈ (normal path).names, u ∈ name := by
  have hslash : u ∉ js "/" := fun h => hu (List.mem_cons_of_mem _ h)
  have hdot : u ∉ js "." := fun h => hu (by rw [List.mem_singleton.mp h]; exact List.mem_cons_self)
  have hdots : u ∉ js ".." := by
    intro h
    rcases List.mem_cons.mp h with h | h
    · exact hdot (List.mem_singleton.mpr h)
    · exact hdot h
  have hslashes : u ∉ js "./" := hu
  have hbody : u ∈ join (normal path).parts (js "/") ↔ ∃ name ∈ (normal path).names, u ∈ name := by
    rw [mem_join_iff hslash, Normal.parts]
    constructor
    · rintro ⟨name, hmem, hname⟩
      rcases List.mem_append.mp hmem with hmem | hmem
      · rw [(List.mem_replicate.mp hmem).2] at hname
        exact absurd hname hdots
      · exact ⟨name, hmem, hname⟩
    · rintro ⟨name, hmem, hname⟩
      exact ⟨name, List.mem_append_right _ hmem, hname⟩
  rw [← hbody, normalize]
  split
  · rename_i hnil
    rw [hnil]
    split
    · exact iff_of_false hslash List.not_mem_nil
    · split
      · exact iff_of_false hslashes List.not_mem_nil
      · exact iff_of_false hdot List.not_mem_nil
  · have hends : ∀ b : Bool, u ∉ (if b then js "/" else []) := by
      intro b
      cases b with
      | true => exact hslash
      | false => exact List.not_mem_nil
    rw [List.mem_append, List.mem_append, or_iff_left (hends _), or_iff_right (hends _)]

theorem normalize_ne_nil (path : JsString) : normalize path ≠ [] := by
  rw [normalize]
  split
  · split
    · decide
    · split <;> decide
  · rename_i hbody
    rw [List.append_assoc]
    exact List.append_ne_nil_of_right_ne_nil _ (List.append_ne_nil_of_left_ne_nil hbody _)

/-! ### Joining -/

/-- Where `join` leads: from the directory along the path. -/
theorem normal_joinPath {dir : JsString} (hdir : dir ≠ []) (path : JsString) :
    normal (joinPath dir path) = Normal.walk (isAbsolute dir) (normal dir) (split path 47) ∧
      isAbsolute (joinPath dir path) = isAbsolute dir := by
  unfold joinPath
  by_cases hpath : path = []
  · have hargs : join ([dir, path].filter fun s => s ≠ []) (js "/") = dir := by simp [hdir, hpath, join]
    rw [hargs, hpath]
    refine ⟨(normal_normalize dir).1.trans ?_, (normal_normalize dir).2⟩
    have hstay : Normal.push (isAbsolute dir) (normal dir) [] = normal dir := by simp [Normal.push]
    exact hstay.symm
  · have hargs : join ([dir, path].filter fun s => s ≠ []) (js "/") = dir ++ js "/" ++ path := by
      simp [hdir, hpath, join, List.intercalate]
    rw [hargs]
    have habs : isAbsolute (dir ++ js "/" ++ path) = isAbsolute dir := by
      obtain ⟨u, t, rfl⟩ := List.exists_cons_of_ne_nil hdir
      rfl
    refine ⟨(normal_normalize _).1.trans ?_, (normal_normalize _).2.trans habs⟩
    rw [normal, habs, split_slash_append, Normal.walk_append]
    rfl

/-- The parts of paths with a slash between them. -/
theorem split_join (dir : JsString) (paths : List JsString) :
    split (join (dir :: paths) (js "/")) 47 = split dir 47 ++ paths.flatMap fun p => split p 47 := by
  induction paths generalizing dir with
  | nil => simp [join, List.intercalate]
  | cons p paths ih =>
    have hjoin : join (dir :: p :: paths) (js "/") = dir ++ js "/" ++ join (p :: paths) (js "/") := by
      simp [join, List.intercalate]
    rw [hjoin, split_slash_append, ih p, List.flatMap_cons]

/-- Empty paths lead nowhere. -/
theorem walk_filter (absolute : Bool) (n : Normal) (paths : List JsString) :
    Normal.walk absolute n ((paths.filter fun s => s ≠ []).flatMap fun p => split p 47) =
      Normal.walk absolute n (paths.flatMap fun p => split p 47) := by
  induction paths generalizing n with
  | nil => rfl
  | cons p paths ih =>
    by_cases hp : p = []
    · have hstay : Normal.push absolute n [] = n := by simp [Normal.push]
      rw [List.filter_cons_of_neg (by simpa using hp), ih, List.flatMap_cons, Normal.walk_append, hp]
      exact congrArg (fun m => Normal.walk absolute m _) hstay.symm
    · rw [List.filter_cons_of_pos (by simpa using hp), List.flatMap_cons, List.flatMap_cons, Normal.walk_append,
        Normal.walk_append, ih]

/-- Where `join` leads: from the directory as far as the path climbs, and down its names. -/
theorem normal_joinPath_climb {dir : JsString} (hdir : dir ≠ []) (path : JsString) :
    normal (joinPath dir path) = Normal.climb (isAbsolute dir) (normal dir) (relative path) :=
  (normal_joinPath hdir path).1.trans (Normal.walk_eq_climb _ _ _)

/-- Where `join` of several paths leads. -/
theorem normal_joinPaths {dir : JsString} (hdir : dir ≠ []) (paths : List JsString) :
    normal (joinPaths (dir :: paths)) =
        Normal.walk (isAbsolute dir) (normal dir) (paths.flatMap fun p => split p 47) ∧
      isAbsolute (joinPaths (dir :: paths)) = isAbsolute dir := by
  have habs : isAbsolute (join (dir :: paths.filter fun s => s ≠ []) (js "/")) = isAbsolute dir := by
    obtain ⟨u, t, rfl⟩ := List.exists_cons_of_ne_nil hdir
    cases paths.filter fun s => s ≠ [] with
    | nil => simp [join, List.intercalate]
    | cons p rest =>
      have hjoin : join ((u :: t) :: p :: rest) (js "/") = u :: (t ++ js "/" ++ join (p :: rest) (js "/")) := by
        simp [join, List.intercalate]
      rw [hjoin]
      rfl
  rw [joinPaths, List.filter_cons_of_pos (by simpa using hdir)]
  refine ⟨(normal_normalize _).1.trans ?_, (normal_normalize _).2.trans habs⟩
  rw [normal, habs, split_join, Normal.walk_append, walk_filter]
  rfl

/-! ### The last part of a path -/

/-- A text without a slash lengthens the last part. -/
theorem split_append_last {s last t : JsString} {init : List JsString} (h : split s 47 = init ++ [last])
    (ht : (47 : UInt16) ∉ t) : split (s ++ t) 47 = init ++ [last ++ t] := by
  have hmem : ∀ p ∈ init ++ [last], (47 : UInt16) ∉ p := fun p hp => (mem_split (h ▸ hp)).1
  have hs : join (init ++ [last]) (js "/") = s := h ▸ join_split s 47
  have hst : s ++ t = join (init ++ [last ++ t]) (js "/") := by
    rw [← hs]
    cases init with
    | nil => simp [join, List.intercalate]
    | cons p init =>
      rw [join_append (List.cons_ne_nil p init) (List.cons_ne_nil last []),
        join_append (List.cons_ne_nil p init) (List.cons_ne_nil (last ++ t) [])]
      simp [join, List.intercalate]
  rw [hst]
  refine List.splitOn_intercalate _ (fun p hp => ?_) (by simp)
  rcases List.mem_append.mp hp with hp | hp
  · exact hmem p (List.mem_append_left _ hp)
  · rw [List.mem_singleton.mp hp, List.mem_append, not_or]
    exact ⟨hmem last (by simp), ht⟩

theorem eq_nil_of_endsWith {s last : JsString} {init : List JsString} (h : split s 47 = init ++ [last])
    (hends : endsWith s (js "/") = true) : last = [] := by
  obtain ⟨t, rfl⟩ := endsWith_iff.mp hends
  rw [split_concat_slash] at h
  exact (List.append_inj' h rfl).2 |> List.singleton_inj.mp |>.symm

/-- What the last part of a normalized path is: nothing, the last name, or a part of a path that has no names. -/
inductive LastPart (path : JsString) (last : JsString) (before : Normal) : Prop where
  | slash (h : last = []) (hends : endsWith path (js "/") = true) (hbefore : normal path = before)
  | name (h : Normal.IsName last) (hends : endsWith path (js "/") = false)
      (hbefore : normal path = ⟨before.ups, before.names ++ [last]⟩)
  | dots (h : before.names = []) (hends : endsWith path (js "/") = false) (hbefore : (normal path).names = [])

theorem lastPart_normalize (path : JsString) : ∃ init last, split (normalize path) 47 = init ++ [last] ∧
    LastPart (normalize path) last (Normal.walk (isAbsolute path) ⟨0, []⟩ init) := by
  have hok := normal_ok path
  obtain ⟨hnormal, -⟩ := normal_normalize path
  by_cases hnil : join (normal path).parts (js "/") = []
  · have hempty := join_parts_eq_nil hok hnil
    simp only [normalize, hnil, if_true] at hnormal ⊢
    cases isAbsolute path with
    | true => exact ⟨[[]], [], rfl, .slash rfl rfl (show normal (js "/") = _ by decide)⟩
    | false =>
      cases endsWith path (js "/") with
      | true => exact ⟨[js "."], [], by decide, .slash rfl (by decide) (by decide)⟩
      | false => exact ⟨[], js ".", by decide, .dots rfl (by decide) (by decide)⟩
  · have hne : (normal path).parts ≠ [] := fun h => hnil (by rw [h]; rfl)
    have hbody : split ((if isAbsolute path then js "/" else []) ++ join (normal path).parts (js "/")) 47 =
        (if isAbsolute path then [[]] else []) ++ (normal path).parts := by
      cases isAbsolute path with
      | true => rw [if_pos rfl, if_pos rfl, split_slash_cons, split_join_parts hok hne, List.singleton_append]
      | false => exact split_join_parts hok hne
    have hwalk : Normal.walk (isAbsolute path) ⟨0, []⟩ ((if isAbsolute path then [[]] else []) ++ (normal path).parts) =
        normal path := by
      have hwalk := walk_slashes (isAbsolute path) (isAbsolute path) false (join (normal path).parts (js "/"))
      rw [if_neg Bool.false_ne_true, List.append_nil, hbody, split_join_parts hok hne, Normal.walk_parts hok] at hwalk
      exact hwalk
    have hpath : normalize path = (if isAbsolute path then js "/" else []) ++ join (normal path).parts (js "/") ++
        (if endsWith path (js "/") then js "/" else []) := by rw [normalize, if_neg hnil]
    cases hends : endsWith path (js "/") with
    | true =>
      rw [hends, if_pos rfl] at hpath
      refine ⟨_, [], by rw [hpath, split_concat_slash, hbody], .slash rfl ?_ ?_⟩
      · exact endsWith_iff.mpr ⟨_, hpath⟩
      · exact hnormal.trans hwalk.symm
    | false =>
      rw [hends, if_neg Bool.false_ne_true, List.append_nil] at hpath
      have hplain : ∀ init last, split (normalize path) 47 = init ++ [last] → last ≠ [] →
          endsWith (normalize path) (js "/") = false := by
        intro init last hsplit hlast
        by_contra h
        exact hlast (eq_nil_of_endsWith hsplit ((Bool.not_eq_false _).mp h))
      rcases List.eq_nil_or_concat (normal path).names with hnames | ⟨init, last, hnames⟩
      · -- only climbing
        have hups : ∃ k, (normal path).ups = k + 1 := by
          refine Nat.exists_eq_succ_of_ne_zero fun h => hne ?_
          rw [Normal.parts, h, hnames]
          rfl
        obtain ⟨k, hk⟩ := hups
        have hrelative : isAbsolute path = false := by
          by_contra h
          rw [hok.ups ((Bool.not_eq_false _).mp h)] at hk
          cases hk
        have hsplit : split (normalize path) 47 = List.replicate k (js "..") ++ [js ".."] := by
          rw [hpath, hbody, hrelative, Normal.parts, hk, hnames, if_neg Bool.false_ne_true, List.nil_append,
            List.append_nil, ← List.replicate_succ']
        refine ⟨_, _, hsplit, .dots ?_ (hplain _ _ hsplit (by decide)) (by rw [hnormal, hnames])⟩
        have hclimb : ∀ m j, (Normal.walk false ⟨j, []⟩ (List.replicate m (js ".."))).names = [] := by
          intro m
          induction m with
          | zero => exact fun _ => rfl
          | succ m ih =>
            intro j
            have hpush : Normal.push false ⟨j, []⟩ (js "..") = ⟨j + 1, []⟩ := rfl
            rw [List.replicate_succ]
            change (Normal.walk false (Normal.push false ⟨j, []⟩ (js "..")) _).names = _
            rw [hpush, ih]
        rw [hrelative, hclimb]
      · have hname : Normal.IsName last := hok.names last (by rw [hnames]; simp)
        have hsplit : split (normalize path) 47 =
            ((if isAbsolute path then [[]] else []) ++ (List.replicate (normal path).ups (js "..") ++ init)) ++ [last] := by
          rw [hpath, hbody, Normal.parts, hnames]
          simp only [List.concat_eq_append, List.append_assoc]
        refine ⟨_, _, hsplit, .name hname (hplain _ _ hsplit hname.1) ?_⟩
        have hparts : (normal path).parts = List.replicate (normal path).ups (js "..") ++ init ++ [last] := by
          rw [Normal.parts, hnames, List.concat_eq_append, List.append_assoc]
        rw [hparts, ← List.append_assoc, Normal.walk_append] at hwalk
        rw [hnormal]
        exact hwalk.symm.trans (Normal.push_name hname)

theorem endsWith_slash_iff {s : JsString} : endsWith s (js "/") = true ↔ s.getLast? = some 47 := by
  rw [endsWith_iff]
  constructor
  · rintro ⟨t, rfl⟩
    simp [js, encode, utf16]
  · intro h
    obtain ⟨t, ht⟩ := List.getLast?_eq_some_iff.mp h
    exact ⟨t, ht⟩

theorem endsWith_append_slash (s : JsString) {t : JsString} (ht : t ≠ []) :
    endsWith (s ++ t) (js "/") = endsWith t (js "/") := by
  rw [Bool.eq_iff_iff, endsWith_slash_iff, endsWith_slash_iff, List.getLast?_append_of_ne_nil _ ht]

theorem join_singleton (s sep : JsString) : join [s] sep = s := by simp [join, List.intercalate]

/-- A path that leads down to a name keeps its slash at the end, or has none. -/
theorem endsWith_normalize {path : JsString} (hnames : (normal path).names ≠ []) :
    endsWith (normalize path) (js "/") = endsWith path (js "/") := by
  have hok := normal_ok path
  have hnil : join (normal path).parts (js "/") ≠ [] := fun h => hnames (by rw [join_parts_eq_nil hok h])
  have hpath : normalize path = (if isAbsolute path then js "/" else []) ++ join (normal path).parts (js "/") ++
      (if endsWith path (js "/") then js "/" else []) := by rw [normalize, if_neg hnil]
  cases hends : endsWith path (js "/") with
  | true =>
    rw [hends, if_pos rfl] at hpath
    exact endsWith_iff.mpr ⟨_, hpath⟩
  | false =>
    rw [hends, if_neg Bool.false_ne_true, List.append_nil] at hpath
    obtain ⟨init, last, hlast⟩ := (List.eq_nil_or_concat (normal path).names).resolve_left hnames
    have hname : Normal.IsName last := hok.names last (by rw [hlast]; simp)
    have hsuffix : ∃ s, normalize path = s ++ last := by
      rw [hpath, Normal.parts, hlast, List.concat_eq_append, ← List.append_assoc]
      by_cases hparts : List.replicate (normal path).ups (js "..") ++ init = []
      · rw [hparts, List.nil_append, join_singleton]
        exact ⟨_, rfl⟩
      · rw [join_append hparts (List.cons_ne_nil _ _), join_singleton, ← List.append_assoc]
        exact ⟨_, rfl⟩
    obtain ⟨s, hs⟩ := hsuffix
    rw [hs, endsWith_append_slash s hname.1]
    by_contra h
    exact hname.2.2.2 (List.mem_of_getLast? (endsWith_slash_iff.mp ((Bool.not_eq_false _).mp h)))

/-- Where a text behind a normalized path leads. -/
theorem normal_normalize_append (path : JsString) {t : JsString} (ht : (47 : UInt16) ∉ t) (hlength : 2 < t.length) :
    ∃ before last, LastPart (normalize path) last before ∧
      normal (normalize path ++ t) = ⟨before.ups, before.names ++ [last ++ t]⟩ ∧
      isAbsolute (normalize path ++ t) = isAbsolute path := by
  obtain ⟨init, last, hsplit, hlast⟩ := lastPart_normalize path
  have habs : isAbsolute (normalize path ++ t) = isAbsolute path := by
    rw [← (normal_normalize path).2]
    cases hpath : normalize path with
    | nil =>
      have hstarts : startsWith ([] ++ t) (js "/") = false := by
        by_contra h
        obtain ⟨t', rfl⟩ := startsWith_iff.mp ((Bool.not_eq_false _).mp h)
        exact ht List.mem_cons_self
      exact hstarts
    | cons u s => rfl
  have hname : Normal.IsName (last ++ t) := by
    apply Normal.isName_of_length
    · rw [List.length_append]
      exact Nat.lt_of_lt_of_le hlength (Nat.le_add_left _ _)
    · rw [List.mem_append, not_or]
      exact ⟨(mem_split (hsplit ▸ List.mem_append_right _ (List.mem_singleton_self last))).1, ht⟩
  refine ⟨_, last, hlast, ?_, habs⟩
  rw [normal, habs, split_append_last hsplit ht, Normal.walk_append]
  exact Normal.push_name hname

theorem concat_eq_append_cons_iff {α : Type} {xs ys : List α} {a : α} :
    (∃ z zs, ys ++ [a] = xs ++ z :: zs) ↔ xs <+: ys := by
  constructor
  · rintro ⟨z, zs, h⟩
    rcases List.eq_nil_or_concat zs with rfl | ⟨zs, b, rfl⟩
    · exact ⟨[], by rw [List.append_nil]; exact (List.append_inj' h rfl).1.symm⟩
    · rw [List.concat_eq_append, ← List.cons_append, ← List.append_assoc] at h
      exact ⟨z :: zs, (List.append_inj' h rfl).1.symm⟩
  · rintro ⟨zs, rfl⟩
    cases zs with
    | nil => exact ⟨a, [], by rw [List.append_nil]⟩
    | cons z zs => exact ⟨z, zs ++ [a], by rw [List.append_assoc, List.cons_append]⟩

/-- A file whose name begins with a normalized path is below a directory when the path is, or when the path is the
directory with a slash behind it. -/
theorem inside_normalize_append_iff {n : Normal} (hn : n.names ≠ []) (path : JsString) {t : JsString}
    (ht : (47 : UInt16) ∉ t) (hlength : 2 < t.length) : n.Inside (normal (normalize path ++ t)) ↔
      n.Inside (normal (normalize path)) ∨ endsWith (normalize path) (js "/") = true ∧ normal (normalize path) = n := by
  obtain ⟨before, last, hlast, hnormal, -⟩ := normal_normalize_append path ht hlength
  have hinside : n.Inside (normal (normalize path ++ t)) ↔ before.ups = n.ups ∧ n.names <+: before.names := by
    rw [Normal.Inside, hnormal]
    exact and_congr_right fun _ => concat_eq_append_cons_iff
  rw [hinside]
  cases hlast with
  | slash hnil hends hbefore =>
    rw [hbefore, hends, and_iff_right rfl]
    constructor
    · rintro ⟨hups, rest, hrest⟩
      cases rest with
      | nil =>
        refine .inr ?_
        obtain ⟨ups, names⟩ := before
        obtain ⟨ups', names'⟩ := n
        rw [List.append_nil] at hrest
        exact (Normal.mk.injEq ..).mpr ⟨hups, hrest.symm⟩
      | cons x xs => exact .inl ⟨hups, x, xs, hrest.symm⟩
    · rintro (⟨hups, x, xs, hnames⟩ | rfl)
      · exact ⟨hups, x :: xs, hnames.symm⟩
      · exact ⟨rfl, List.prefix_rfl⟩
  | name hname hends hbefore =>
    rw [hbefore, hends, or_iff_left fun h => Bool.false_ne_true h.1]
    exact and_congr_right fun _ => concat_eq_append_cons_iff.symm
  | dots hnil hends hbefore =>
    refine iff_of_false ?_ ?_
    · rintro ⟨-, hprefix⟩
      rw [hnil] at hprefix
      exact hn (List.prefix_nil.mp hprefix)
    · rintro (⟨-, x, xs, hnames⟩ | ⟨-, hsame⟩)
      · rw [hbefore] at hnames
        exact absurd hnames (by simp)
      · exact hn (hsame ▸ hbefore)

/-! ### From the working directory -/

/-- `resolve(cwd, path)`: the names from the root. -/
def resolved (cwd : List JsString) (path : JsString) : List JsString :=
  (Normal.climb true ⟨0, if isAbsolute path then [] else cwd⟩ (normal path)).names

section Resolved

variable {cwd : List JsString} {dir name t : JsString}

/-- An entry of a directory: where it leads, and how its path ends. -/
theorem joinPath_name (dir : JsString) (h : Normal.IsName name) :
    normal (joinPath dir name) = ⟨(normal dir).ups, (normal dir).names ++ [name]⟩ ∧
      isAbsolute (joinPath dir name) = isAbsolute dir ∧ endsWith (joinPath dir name) (js "/") = false := by
  have hsplit : split name 47 = [name] := split_of_not_mem h.2.2.2
  have hends : ∀ path, normal (normalize path) = ⟨(normal dir).ups, (normal dir).names ++ [name]⟩ →
      endsWith path (js "/") = endsWith name (js "/") → endsWith (normalize path) (js "/") = false := by
    intro path hnormal hpath
    have hnames : (normal path).names ≠ [] := by
      rw [← (normal_normalize path).1, hnormal]
      simp
    rw [endsWith_normalize hnames, hpath]
    by_contra hslash
    exact h.2.2.2 (List.mem_of_getLast? (endsWith_slash_iff.mp ((Bool.not_eq_false _).mp hslash)))
  by_cases hdir : dir = []
  · have hpath : joinPath dir name = normalize name := by simp [joinPath, hdir, h.1, join]
    have habs : isAbsolute name = false := by
      by_contra hslash
      obtain ⟨s, rfl⟩ := startsWith_iff.mp ((Bool.not_eq_false _).mp hslash)
      exact h.2.2.2 List.mem_cons_self
    have hnormal : normal (normalize name) = ⟨(normal dir).ups, (normal dir).names ++ [name]⟩ := by
      rw [(normal_normalize name).1, normal, hsplit, Normal.walk_singleton, Normal.push_name h, hdir]
      rfl
    rw [hpath, (normal_normalize name).2, habs, hdir]
    rw [hdir] at hnormal hends
    exact ⟨hnormal, rfl, hends name hnormal rfl⟩
  · have hjoined := normal_joinPath hdir name
    rw [hsplit, Normal.walk_singleton, Normal.push_name h] at hjoined
    refine ⟨hjoined.1, hjoined.2, ?_⟩
    have hpath : joinPath dir name = normalize (dir ++ js "/" ++ name) := by
      simp [joinPath, hdir, h.1, join, List.intercalate]
    rw [hpath] at hjoined ⊢
    exact hends _ hjoined.1 (endsWith_append_slash _ h.1)

/-- An entry of a directory. -/
theorem resolved_joinPath (cwd : List JsString) (dir : JsString) (h : Normal.IsName name) :
    resolved cwd (joinPath dir name) = resolved cwd dir ++ [name] := by
  obtain ⟨hnormal, habs, -⟩ := joinPath_name dir h
  simp only [resolved, hnormal, habs, Normal.climb, List.append_assoc]

/-- Where a relative path leads from a directory. -/
theorem resolved_joinPath_climb (cwd : List JsString) (hdir : dir ≠ []) (path : JsString) :
    resolved cwd (joinPath dir path) = (Normal.climb true ⟨0, resolved cwd dir⟩ (relative path)).names := by
  have hnormal := normal_joinPath_climb hdir path
  have habs := (normal_joinPath hdir path).2
  rw [resolved, hnormal, habs]
  cases hroot : isAbsolute dir with
  | true =>
    have hups : (normal dir).ups = 0 := (normal_ok dir).ups hroot
    simp only [resolved, hroot, Normal.climb, if_true, List.take_nil, List.nil_append, List.length_nil, hups]
  | false =>
    have hdirNormal : normal dir = Normal.walk false ⟨0, []⟩ (split dir 47) := by rw [normal, hroot]
    have htwice := Normal.climb_climb true ⟨0, cwd⟩ (split dir 47) (split path 47)
    rw [← hdirNormal] at htwice
    rw [resolved, hroot]
    exact congrArg Normal.names htwice.symm

/-- To go along a path is to go along its parts, one after the other. -/
theorem climb_relative_append (n : Normal) (path path' : JsString) :
    Normal.climb true n (relative (path ++ js "/" ++ path')) =
      Normal.climb true (Normal.climb true n (relative path)) (relative path') := by
  have happend : relative (path ++ js "/" ++ path') = Normal.climb false (relative path) (relative path') := by
    rw [relative, split_slash_append, Normal.walk_append, Normal.walk_eq_climb]
    rfl
  rw [happend]
  exact (Normal.climb_climb true n _ _).symm

/-- What is below a directory, by names alone. -/
theorem resolved_joinPath_names (cwd : List JsString) (dir : JsString) {path : JsString}
    (h : ∀ s ∈ split path 47, Normal.IsName s) : resolved cwd (joinPath dir path) = resolved cwd dir ++ split path 47 := by
  have hnormal : normal (joinPath dir path) = ⟨(normal dir).ups, (normal dir).names ++ split path 47⟩ ∧
      isAbsolute (joinPath dir path) = isAbsolute dir := by
    by_cases hdir : dir = []
    · have hpath : path ≠ [] := by
        rintro rfl
        exact (h [] (List.mem_singleton_self _)).1 rfl
      have habs : isAbsolute path = false := by
        by_contra hslash
        obtain ⟨s, rfl⟩ := startsWith_iff.mp ((Bool.not_eq_false _).mp hslash)
        rw [split_slash_cons] at h
        exact (h [] List.mem_cons_self).1 rfl
      have hjoin : joinPath dir path = normalize path := by simp [joinPath, hdir, hpath, join]
      rw [hjoin, (normal_normalize path).1, (normal_normalize path).2, habs, hdir, normal, habs, Normal.walk_names 0 [] _ h]
      exact ⟨rfl, rfl⟩
    · obtain ⟨hnormal, habs⟩ := normal_joinPath hdir path
      exact ⟨hnormal.trans (Normal.walk_names _ _ _ h), habs⟩
  simp only [resolved, hnormal.1, hnormal.2, Normal.climb, List.append_assoc]

/-- An entry whose name goes on behind that of another. -/
theorem resolved_joinPath_append (cwd : List JsString) (dir : JsString) (h : Normal.IsName name) (ht : (47 : UInt16) ∉ t)
    (hlength : 2 < t.length) : resolved cwd (joinPath dir name ++ t) = resolved cwd dir ++ [name ++ t] := by
  obtain ⟨hnormal, habs, hends⟩ := joinPath_name dir h
  have hpath : ∃ path, joinPath dir name = normalize path := ⟨_, rfl⟩
  obtain ⟨path, hpath⟩ := hpath
  rw [hpath] at hnormal habs hends ⊢
  obtain ⟨before, last, hlast, hgoes, habs'⟩ := normal_normalize_append path ht hlength
  have hbefore : before = normal dir ∧ last = name := by
    cases hlast with
    | slash _ hslash _ =>
      rw [hends] at hslash
      cases hslash
    | name _ _ hsame =>
      rw [hnormal, Normal.mk.injEq] at hsame
      obtain ⟨hups, hnames⟩ := hsame
      obtain ⟨hfront, hback⟩ := List.append_inj' hnames rfl
      refine ⟨?_, (List.singleton_inj.mp hback).symm⟩
      cases before
      exact (Normal.mk.injEq ..).mpr ⟨hups.symm, hfront.symm⟩
    | dots _ _ hnil =>
      rw [hnormal] at hnil
      simp at hnil
  obtain ⟨rfl, rfl⟩ := hbefore
  rw [(normal_normalize path).2] at habs
  simp only [resolved, hgoes, habs', habs, Normal.climb, List.append_assoc]

end Resolved

end Wanfw.Js
