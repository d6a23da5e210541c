import Wanfw.Orchestrator.CertStore
import Wanfw.Store.Generations

/-!
# Generations of a certificate

The directory of a certificate name is an archive of numbered generations (`archive`): a
generation has the contents of its three files, and `current` is the number in the pointer.
Every change that `storeCert` and `rollbackCert` make is a move of the archive (`Edge`):
what is written under a temporary name changes nothing, renaming it publishes a generation
or moves the pointer, and what is removed is older than the three newest (`storeNamed_spec`).
-/

namespace Wanfw.Orchestrator.Certs

open Wanfw.Js Wanfw.Store

/-! ### Names of entries -/

section Names

variable {P : Process} {m n : ℤ} {pid : ℕ} {now : ℤ}

theorem integerOf_intText (n : ℤ) : integerOf P (intText n) = some n := by
  rw [integerOf, intText, toNumber_numberToString, Option.bind_some, intOf_ofInt]

theorem trim_intText (n : ℤ) : trim (intText n) = intText n :=
  trim_eq_self fun u hu => isSpace_numeral (isNumeral_numberToString _ u hu)

theorem integer_intText (n : ℤ) : (Content.text (intText n)).integer P = some n := by
  rw [Content.integer, trim_intText, integerOf_intText]

theorem startsWith_genName (n : ℤ) : startsWith (genName n) (js "gen-") = true := startsWith_iff.mpr ⟨_, rfl⟩

theorem integerOf_genName (n : ℤ) : integerOf P ((genName n).drop 4) = some n := integerOf_intText n

theorem genName_inj (h : genName m = genName n) : m = n := intText_inj (List.append_cancel_left h)

theorem numeral_ne {u : UInt16} (hu : ¬ IsNumeral u) (n : ℤ) : u ∉ intText n :=
  fun hmem => hu (isNumeral_numberToString _ u hmem)

theorem isName_genName (n : ℤ) : Normal.IsName (genName n) := by
  have hlength : 2 < (js "gen-" ++ intText n).length := by
    rw [List.length_append]
    exact Nat.lt_of_lt_of_le (show 2 < (js "gen-").length by decide) (Nat.le_add_right _ _)
  apply Normal.isName_of_length hlength
  rw [List.mem_append, not_or]
  exact ⟨by decide, numeral_ne (by decide) n⟩

theorem mem_tmpSuffix (pid : ℕ) (now : ℤ) : (116 : UInt16) ∈ tmpSuffix pid now := by
  simp only [tmpSuffix, List.mem_append]
  exact .inl (.inl (.inl (by decide)))

theorem slash_not_mem_tmpSuffix (pid : ℕ) (now : ℤ) : (47 : UInt16) ∉ tmpSuffix pid now := by
  simp only [tmpSuffix, List.mem_append, not_or]
  exact ⟨⟨⟨by decide, not_mem_of_digits (by decide) (isDigit_natToString _)⟩, by decide⟩, numeral_ne (by decide) now⟩

theorem length_tmpSuffix (pid : ℕ) (now : ℤ) : 2 < (tmpSuffix pid now).length := by
  simp only [tmpSuffix, List.length_append]
  have h : 2 < (js ".tmp-").length := by decide
  omega

theorem integerOf_tmp (n : ℤ) : integerOf P ((genName n ++ tmpSuffix pid now).drop 4) = none := by
  have hdrop : (genName n ++ tmpSuffix pid now).drop 4 = intText n ++ tmpSuffix pid now := rfl
  rw [integerOf, hdrop, toNumber_of_t (List.mem_append_right _ (mem_tmpSuffix pid now))]
  rfl

end Names

/-! ### The archive of a name -/

/-- The files of a generation. -/
structure Bundle where
  fullchain : Option (Node Content)
  key : Option (Node Content)
  certMeta : Option (Node Content)

variable (P : Process)

/-- The files of a generation, if it is there. -/
def bundleAt (dir : List JsString) (t : Tree) (n : ℤ) : Option Bundle :=
  if t.isDir (dir ++ [genName n]) then
    some ⟨t.node (dir ++ genName n :: [js "fullchain.pem"]), t.node (dir ++ genName n :: [js "key.pem"]),
      t.node (dir ++ genName n :: [js "meta.json"])⟩
  else none

/-- The number in the pointer, if it is there. -/
def currentAt (dir : List JsString) (t : Tree) : Option ℤ :=
  match t.node (dir ++ [js "current"]) with
  | some (.file c) => c.integer P
  | _ => none

/-- What is in the directory of a name. -/
def archive (dir : List JsString) (t : Tree) : Archive ℤ Bundle := ⟨bundleAt dir t, currentAt P dir t⟩

/-- An entry that is read as a generation is one, under its own name, and the pointer is a file with a number. -/
structure Tidy (dir : List JsString) (t : Tree) : Prop where
  entries : ∀ e, t.node (dir ++ [e]) ≠ none → startsWith e (js "gen-") = true → ∀ n, integerOf P (e.drop 4) = some n →
    e = genName n ∧ t.node (dir ++ [e]) = some .dir
  pointer : ∀ x, t.node (dir ++ [js "current"]) = some x → ∃ n, x = .file (.text (intText n))

/-- The numbers of the generations, in ascending order. -/
def Lists (dir : List JsString) (t : Tree) (gens : List ℤ) : Prop :=
  gens.Pairwise (· < ·) ∧ ∀ n, n ∈ gens ↔ (archive P dir t).Has n

variable {P} {dir : List JsString} {t t' : Tree} {e e' : JsString} {m n : ℤ}

theorem has_iff : (archive P dir t).Has n ↔ t.node (dir ++ [genName n]) = some .dir := by
  simp [Archive.Has, archive, bundleAt]

theorem Tidy.genDir (h : Tidy P dir t) (hn : t.node (dir ++ [genName n]) ≠ none) : (archive P dir t).Has n :=
  has_iff.mpr (h.entries _ hn (startsWith_genName n) n (integerOf_genName n)).2

section Listing

variable {certsDir name : JsString} {R : Tree → Tree → Prop} {base t₀ : Tree} {cwd : List JsString}
  {E : JsError → Volume → Prop}

theorem pairwise_lt_of_sorted {xs : List ℤ} (hnodup : xs.Nodup) : (sortBy (fun a b => a - b) xs).Pairwise (· < ·) := by
  have hle : ∀ a b : ℤ, a - b ≤ 0 ↔ id a ≤ id b := by simp
  have hsorted : (sortBy (fun a b : ℤ => a - b) xs).Pairwise fun a b => id a ≤ id b := pairwise_sortBy hle xs
  have hnodup' : (sortBy (fun a b : ℤ => a - b) xs).Nodup := (sortBy_perm _ xs).nodup_iff.mpr hnodup
  exact (hsorted.and hnodup').imp fun hle => lt_of_le_of_ne hle.1 hle.2

/-- What `listGenerations` makes of the entries of a tidy directory. -/
theorem lists_of_entries (h : Tidy P dir t) {entries : List JsString}
    (hentries : (t.readdir dir).map (fun all => all.filter fun e => t.isDir (dir ++ [e])) = some entries) :
    Lists P dir t (sortBy (fun a b => a - b)
      ((entries.filter fun entry => startsWith entry (js "gen-")).filterMap fun entry => integerOf P (entry.drop 4))) := by
  obtain ⟨all, hall, rfl⟩ := Option.map_eq_some_iff.mp hentries
  unfold FileTree.readdir at hall
  split at hall
  · cases hall
    have hmem : ∀ e, e ∈ ((t.entries dir).filter fun e => t.isDir (dir ++ [e])).filter (fun entry => startsWith entry (js "gen-")) ↔
        t.node (dir ++ [e]) = some .dir ∧ startsWith e (js "gen-") = true := by
      intro e
      simp only [List.mem_filter, FileTree.mem_entries, FileTree.isDir_iff]
      exact and_congr_left fun _ => ⟨fun h => h.2, fun h => ⟨by simp [h], h⟩⟩
    constructor
    · refine pairwise_lt_of_sorted ?_
      rw [List.Nodup, List.pairwise_filterMap]
      refine List.Pairwise.imp_of_mem (fun {a b} ha hb hne x hx y hy heq => ?_)
        (((FileTree.nodup_entries t dir).filter _).filter _)
      obtain ⟨hadir, hagen⟩ := (hmem a).mp ha
      obtain ⟨hbdir, hbgen⟩ := (hmem b).mp hb
      have hname := (h.entries a (by simp [hadir]) hagen x hx).1
      have hname' := (h.entries b (by simp [hbdir]) hbgen y hy).1
      exact hne (hname.trans (by rw [heq, ← hname']))
    · intro n
      rw [(sortBy_perm _ _).mem_iff, List.mem_filterMap, has_iff]
      constructor
      · rintro ⟨e, he, hn⟩
        obtain ⟨hdir, hgen⟩ := (hmem e).mp he
        rw [← (h.entries e (by simp [hdir]) hgen n hn).1]
        exact hdir
      · intro hdir
        exact ⟨genName n, (hmem _).mpr ⟨hdir, startsWith_genName n⟩, integerOf_genName n⟩
  · cases hall

/-- `listGenerations` lists the generations of a tidy directory. -/
theorem listGenerations_spec (htidy : Tidy P (resolved cwd (nameDir certsDir name)) t₀)
    (hE : ∀ e v, Trail R base cwd (· = t₀) v → E e v) :
    Act.Triple (Trail R base cwd (· = t₀)) (listGenerations P certsDir name)
      (fun gens => Trail R base cwd fun t => t = t₀ ∧
        (Plain (resolved cwd (nameDir certsDir name)) → Lists P (resolved cwd (nameDir certsDir name)) t₀ gens)) E := by
  refine Act.Triple.bind Trail.existsSync fun found => ?_
  cases found with
  | false =>
    refine Act.Triple.pure fun v hv => hv.imp ?_
    rintro ⟨ht, -, hnone⟩
    refine ⟨ht, fun hplain => ?_⟩
    refine ⟨List.Pairwise.nil, fun n => ⟨(fun h => nomatch h), fun hn => ?_⟩⟩
    have hdir := t₀.closed _ _ (show t₀.node (resolved cwd (nameDir certsDir name) ++ [genName n]) ≠ none by
      simp [has_iff.mp hn])
    rw [← ht, hnone rfl hplain] at hdir
    cases hdir
  | true =>
    rw [if_pos rfl]
    refine Act.Triple.bind (Trail.readSubdirectories fun e v hv => hE e v (hv.imp fun h => h.1)) fun entries => ?_
    refine Act.Triple.pure fun v hv => hv.imp ?_
    rintro ⟨⟨rfl, -⟩, hentries⟩
    exact ⟨rfl, fun _ => lists_of_entries htidy hentries⟩

end Listing

/-! ### What a change does to the archive -/

/-- Two trees differ below these entries of a directory only. -/
def SameBut (es : List JsString) (dir : List JsString) (t t' : Tree) : Prop :=
  ∀ e ∉ es, ∀ rest, t'.node (dir ++ e :: rest) = t.node (dir ++ e :: rest)

theorem entry_prefix_iff {rest : List JsString} : dir ++ [e] <+: dir ++ e' :: rest ↔ e = e' := by
  rw [List.prefix_append_right_inj, List.cons_prefix_cons, and_iff_left List.nil_prefix]

theorem sameBut_mkdirp (h : t.mkdirp (dir ++ [e]) = some t') : SameBut [e] dir t t' := by
  intro x hx rest
  rw [FileTree.node_mkdirp h, if_neg]
  intro hpre
  rw [List.prefix_append_right_inj, List.cons_prefix_cons] at hpre
  exact hx (by simp [hpre.1])

theorem sameBut_writeFile {rest : List JsString} {c : Content} (h : t.writeFile (dir ++ e :: rest) c = some t') :
    SameBut [e] dir t t' := by
  intro x hx rest'
  rw [FileTree.node_writeFile h, if_neg]
  intro heq
  exact hx (by simp [(List.cons.inj (List.append_cancel_left heq)).1])

theorem sameBut_remove : SameBut [e] dir t (t.remove (dir ++ [e])) := by
  intro x hx rest
  rw [FileTree.node_remove (by simp), if_neg]
  rw [entry_prefix_iff]
  exact fun heq => hx (by simp [heq])

/-- What is renamed is found under the new name. -/
theorem sameBut_rename (h : t.rename (dir ++ [e]) (dir ++ [e']) = some t') : SameBut [e, e'] dir t t' ∧
    ∀ rest, t'.node (dir ++ e' :: rest) = t.node (dir ++ e :: rest) := by
  constructor
  · intro x hx rest
    simp only [List.mem_cons, List.not_mem_nil, or_false, not_or] at hx
    rw [FileTree.node_rename h, if_neg (by rw [entry_prefix_iff]; exact fun heq => hx.2 heq.symm),
      if_neg (by rw [entry_prefix_iff]; exact fun heq => hx.1 heq.symm)]
  · intro rest
    rw [FileTree.node_rename h, if_pos (entry_prefix_iff.mpr rfl)]
    have hdrop : (dir ++ e' :: rest).drop (dir ++ [e']).length = rest := by
      rw [show dir ++ e' :: rest = (dir ++ [e']) ++ rest by simp, List.drop_left]
    rw [hdrop, List.append_assoc]
    rfl

variable (P) in
/-- An entry that is neither a generation nor the pointer. -/
def Scratch (e : JsString) : Prop :=
  e ≠ js "current" ∧ ∀ n, startsWith e (js "gen-") = true → integerOf P (e.drop 4) ≠ some n

theorem Scratch.ne_genName (h : Scratch P e) (n : ℤ) : e ≠ genName n := by
  rintro rfl
  exact h.2 n (startsWith_genName n) (integerOf_genName n)

theorem current_not_gen (rest : JsString) : startsWith (js "current" ++ rest) (js "gen-") = false := rfl

theorem scratch_tmpDir (n : ℤ) (pid : ℕ) (now : ℤ) : Scratch P (genName n ++ tmpSuffix pid now) := by
  refine ⟨fun h => ?_, fun m _ hm => ?_⟩
  · have hgen : startsWith (js "current") (js "gen-") = true := by
      rw [← h]
      exact startsWith_iff.mpr ⟨_, List.append_assoc _ _ _⟩
    cases hgen.symm.trans (current_not_gen [])
  · rw [integerOf_tmp] at hm
    cases hm

theorem scratch_pointer (pid : ℕ) (now : ℤ) : Scratch P (js "current" ++ tmpSuffix pid now) := by
  refine ⟨fun h => ?_, fun m hgen => ?_⟩
  · have hlength := congrArg List.length h
    have hlong := length_tmpSuffix pid now
    rw [List.length_append] at hlength
    omega
  · cases hgen.symm.trans (current_not_gen _)

theorem current_ne_genName (n : ℤ) : js "current" ≠ genName n :=
  fun h => by cases (h ▸ startsWith_genName n : startsWith (js "current") (js "gen-") = true).symm.trans (current_not_gen [])

variable (P) in
/-- A change that keeps the directory tidy and is a move of its archive; what it publishes satisfies `B`. -/
def Edge (B : Bundle → Prop) (dir : List JsString) (t t' : Tree) : Prop :=
  Tidy P dir t' ∧ Archive.Move B (archive P dir t) (archive P dir t')

variable {B : Bundle → Prop} {x : Bundle}

theorem bundleAt_congr (h : ∀ rest, t'.node (dir ++ genName n :: rest) = t.node (dir ++ genName n :: rest)) :
    bundleAt dir t' n = bundleAt dir t n := by
  unfold bundleAt FileTree.isDir
  rw [h, h, h, h]

theorem currentAt_congr (h : t'.node (dir ++ [js "current"]) = t.node (dir ++ [js "current"])) :
    currentAt P dir t' = currentAt P dir t := by
  unfold currentAt
  rw [h]

theorem Archive.ext' {a b : Archive ℤ Bundle} (hbundle : ∀ n, a.bundle n = b.bundle n) (hcurrent : a.current = b.current) :
    a = b := by
  cases a
  cases b
  exact (Archive.mk.injEq ..).mpr ⟨funext hbundle, hcurrent⟩

theorem archive_scratch (h : SameBut [e] dir t t') (he : Scratch P e) : archive P dir t' = archive P dir t := by
  refine Archive.ext' (fun n => bundleAt_congr fun rest => h _ (by simpa using (he.ne_genName n).symm) rest) ?_
  exact currentAt_congr (h _ (by simpa using he.1.symm) [])

/-- Work on a temporary entry changes nothing. -/
theorem edge_scratch (htidy : Tidy P dir t) (h : SameBut [e] dir t t') (he : Scratch P e) : Edge P B dir t t' := by
  refine ⟨⟨fun x hx hgen n hn => ?_, fun x hx => ?_⟩, ?_⟩
  · have hne : x ∉ [e] := by
      rw [List.mem_singleton]
      rintro rfl
      exact he.2 n hgen hn
    rw [h x hne []] at hx ⊢
    exact htidy.entries x hx hgen n hn
  · rw [h _ (by simpa using he.1.symm) []] at hx
    exact htidy.pointer x hx
  · rw [archive_scratch h he]
    exact .stay

/-- A directory that is renamed to a generation is published. -/
theorem edge_publish (htidy : Tidy P dir t) (h : t.rename (dir ++ [e]) (dir ++ [genName n]) = some t') (he : Scratch P e)
    (hdir : t.node (dir ++ [e]) = some .dir) (hnew : ∀ m, (archive P dir t).Has m → m < n)
    (hB : B ⟨t.node (dir ++ e :: [js "fullchain.pem"]), t.node (dir ++ e :: [js "key.pem"]), t.node (dir ++ e :: [js "meta.json"])⟩) :
    Edge P B dir t t' ∧ (∀ m, (archive P dir t').Has m ↔ m = n ∨ (archive P dir t).Has m) := by
  obtain ⟨hsame, hmoved⟩ := sameBut_rename h
  have hother : ∀ x, Scratch P x ∨ (∃ m, m ≠ n ∧ x = genName m) ∨ x = js "current" → x ≠ e → x ∉ [e, genName n] := by
    intro x hx hxe
    simp only [List.mem_cons, List.not_mem_nil, or_false, not_or]
    refine ⟨hxe, ?_⟩
    rintro rfl
    rcases hx with hx | ⟨m, hm, hx⟩ | hx
    · exact hx.ne_genName n rfl
    · exact hm (genName_inj hx).symm
    · exact current_ne_genName n hx.symm
  have hbundle : (archive P dir t').bundle = Function.update (archive P dir t).bundle n
      (some ⟨t.node (dir ++ e :: [js "fullchain.pem"]), t.node (dir ++ e :: [js "key.pem"]),
        t.node (dir ++ e :: [js "meta.json"])⟩) := by
    funext m
    by_cases hmn : m = n
    · subst hmn
      rw [Function.update_self]
      have hthere : t'.isDir (dir ++ [genName m]) = true := by rw [FileTree.isDir_iff, hmoved [], hdir]
      simp only [archive, bundleAt, hthere, if_true, hmoved]
    · rw [Function.update_of_ne hmn]
      exact bundleAt_congr (hsame _ (hother _ (.inr (.inl ⟨m, hmn, rfl⟩)) (he.ne_genName m).symm))
  have harchive : archive P dir t' = { archive P dir t with bundle := (archive P dir t').bundle } :=
    Archive.ext' (fun _ => rfl) (currentAt_congr (hsame _ (hother _ (.inr (.inr rfl)) he.1.symm) []))
  refine ⟨⟨⟨fun x hx hgen m hm => ?_, fun x hx => ?_⟩, ?_⟩, fun m => ?_⟩
  · by_cases hxn : x = genName n
    · subst hxn
      rw [integerOf_genName, Option.some.injEq] at hm
      subst hm
      exact ⟨rfl, by rw [hmoved [], hdir]⟩
    · have hxe : x ≠ e := by
        rintro rfl
        exact he.2 m hgen hm
      rw [hsame x (by simp [hxe, hxn]) []] at hx ⊢
      exact htidy.entries x hx hgen m hm
  · rw [hsame _ (hother _ (.inr (.inr rfl)) he.1.symm) []] at hx
    exact htidy.pointer x hx
  · rw [harchive, hbundle]
    exact .publish n _ hB hnew
  · rw [harchive, hbundle]
    exact Archive.has_update_some

/-- The pointer is moved. -/
theorem edge_point (htidy : Tidy P dir t) (h : t.rename (dir ++ [e]) (dir ++ [js "current"]) = some t') (he : Scratch P e)
    (hfile : t.node (dir ++ [e]) = some (.file (.text (intText n)))) (hn : (archive P dir t).Has n) :
    Edge P B dir t t' ∧ archive P dir t' = { archive P dir t with current := some n } ∧
      t'.node (dir ++ [js "current"]) = some (.file (.text (intText n))) := by
  obtain ⟨hsame, hmoved⟩ := sameBut_rename h
  have hpointer : t'.node (dir ++ [js "current"]) = some (.file (.text (intText n))) := (hmoved []).trans hfile
  have harchive : archive P dir t' = { archive P dir t with current := some n } := by
    refine Archive.ext' (fun m => bundleAt_congr (hsame _ ?_)) ?_
    · simp [(he.ne_genName m).symm, (current_ne_genName m).symm]
    · simp only [archive, currentAt, hpointer, integer_intText]
  refine ⟨⟨⟨fun x hx hgen m hm => ?_, fun x hx => ?_⟩, ?_⟩, harchive, hpointer⟩
  · have hne : x ∉ [e, js "current"] := by
      simp only [List.mem_cons, List.not_mem_nil, or_false, not_or]
      constructor
      · rintro rfl
        exact he.2 m hgen hm
      · rintro rfl
        cases hgen.symm.trans (current_not_gen [])
    rw [hsame x hne []] at hx ⊢
    exact htidy.entries x hx hgen m hm
  · rw [hpointer] at hx
    cases hx
    exact ⟨n, rfl⟩
  · rw [harchive]
    exact .point n hn

/-- A generation is removed that is neither current nor the newest. -/
theorem edge_prune (htidy : Tidy P dir t) (hcurrent : (archive P dir t).current ≠ some n)
    (hnewer : ∃ m, n < m ∧ (archive P dir t).Has m) : Edge P B dir t (t.remove (dir ++ [genName n])) ∧
      archive P dir (t.remove (dir ++ [genName n])) =
        { archive P dir t with bundle := Function.update (archive P dir t).bundle n none } := by
  have hsame : SameBut [genName n] dir t (t.remove (dir ++ [genName n])) := sameBut_remove
  have hgone : (t.remove (dir ++ [genName n])).node (dir ++ [genName n]) = none := by
    rw [FileTree.node_remove (by simp), if_pos List.prefix_rfl]
  have hpointer : js "current" ∉ [genName n] := by simpa using current_ne_genName n
  have harchive : archive P dir (t.remove (dir ++ [genName n])) =
      { archive P dir t with bundle := Function.update (archive P dir t).bundle n none } := by
    refine Archive.ext' (fun m => ?_) (currentAt_congr (hsame _ hpointer []))
    by_cases hmn : m = n
    · subst hmn
      simp [archive, bundleAt, FileTree.isDir, hgone]
    · simp only [Function.update_of_ne hmn]
      exact bundleAt_congr (hsame _ (by simpa using fun h => hmn (genName_inj h)))
  refine ⟨⟨⟨fun x hx hgen m hm => ?_, fun x hx => ?_⟩, ?_⟩, harchive⟩
  · have hne : x ∉ [genName n] := by
      rw [List.mem_singleton]
      rintro rfl
      exact hx hgone
    rw [hsame x hne []] at hx ⊢
    exact htidy.entries x hx hgen m hm
  · rw [hsame _ hpointer []] at hx
    exact htidy.pointer x hx
  · rw [harchive]
    exact .prune n hcurrent hnewer

/-! ### The calls -/

section Calls

variable {certsDir name : JsString} {base t₀ : Tree} {cwd : List JsString} {E : JsError → Volume → Prop}

theorem resolved_genDir (hdir : resolved cwd (nameDir certsDir name) = dir) (n : ℤ) :
    resolved cwd (genDir certsDir name n) = dir ++ [genName n] := by
  rw [genDir, resolved_joinPath cwd _ (isName_genName n), hdir]

theorem resolved_tmpDir (hdir : resolved cwd (nameDir certsDir name) = dir) (n : ℤ) (pid : ℕ) (now : ℤ) :
    resolved cwd (genDir certsDir name n ++ tmpSuffix pid now) = dir ++ [genName n ++ tmpSuffix pid now] := by
  rw [genDir, resolved_joinPath_append cwd _ (isName_genName n) (slash_not_mem_tmpSuffix pid now) (length_tmpSuffix pid now), hdir]

theorem resolved_tmpFile (hdir : resolved cwd (nameDir certsDir name) = dir) (n : ℤ) (pid : ℕ) (now : ℤ) {file : JsString}
    (hfile : Normal.IsName file) : resolved cwd (joinPath (genDir certsDir name n ++ tmpSuffix pid now) file) =
      dir ++ (genName n ++ tmpSuffix pid now) :: [file] := by
  rw [resolved_joinPath cwd _ hfile, resolved_tmpDir hdir, List.append_assoc]
  rfl

theorem isName_current : Normal.IsName (js "current") := Normal.isName_of_length (by decide) (by decide)

theorem resolved_current (hdir : resolved cwd (nameDir certsDir name) = dir) :
    resolved cwd (currentPointerPath certsDir name) = dir ++ [js "current"] := by
  rw [currentPointerPath, resolved_joinPath cwd _ isName_current, hdir]

theorem resolved_tmpCurrent (hdir : resolved cwd (nameDir certsDir name) = dir) (pid : ℕ) (now : ℤ) :
    resolved cwd (currentPointerPath certsDir name ++ tmpSuffix pid now) = dir ++ [js "current" ++ tmpSuffix pid now] := by
  rw [currentPointerPath, resolved_joinPath_append cwd _ isName_current (slash_not_mem_tmpSuffix pid now)
    (length_tmpSuffix pid now), hdir]

theorem nul_not_mem_tmpSuffix (pid : ℕ) (now : ℤ) : (0 : UInt16) ∉ tmpSuffix pid now := by
  simp only [tmpSuffix, List.mem_append, not_or]
  exact ⟨⟨⟨by decide, not_mem_of_digits (by decide) (isDigit_natToString _)⟩, by decide⟩, numeral_ne (by decide) now⟩

theorem Plain.concat (h : Plain dir) (he : (0 : UInt16) ∉ e) : Plain (dir ++ [e]) := by
  intro s hs
  rcases List.mem_append.mp hs with hs | hs
  · exact h s hs
  · rwa [List.mem_singleton.mp hs]

/-- `writeCurrentGeneration` moves the pointer to a generation, or changes nothing. -/
theorem writeCurrentGeneration_spec {G : Tree → Prop} (hdir : resolved cwd (nameDir certsDir name) = dir) (hplain : Plain dir)
    (hG : ∀ t, G t → Tidy P dir t ∧ (archive P dir t).Has n) (hE : ∀ e v, Trail (Edge P B dir) base cwd G v → E e v) :
    Act.Triple (Trail (Edge P B dir) base cwd G) (writeCurrentGeneration P certsDir name n)
      (fun _ => Trail (Edge P B dir) base cwd fun t' => ∃ t, G t ∧ Tidy P dir t' ∧
        archive P dir t' = { archive P dir t with current := some n } ∧
        t'.node (dir ++ [js "current"]) = some (.file (.text (intText n)))) E := by
  refine Act.Triple.bind Trail.readNow fun now => ?_
  have hscratch : Scratch P (js "current" ++ tmpSuffix P.pid now) := scratch_pointer _ _
  refine Act.Triple.bind (Q := fun _ => Trail (Edge P B dir) base cwd fun t' => ∃ t, G t ∧ Tidy P dir t' ∧
    archive P dir t' = archive P dir t ∧
    t'.node (dir ++ [js "current" ++ tmpSuffix P.pid now]) = some (.file (.text (intText n)))) ?_ fun _ => ?_
  · refine Trail.writeFileSync (fun t t' ht hwrite => ?_) hE
    rw [resolved_tmpCurrent hdir] at hwrite
    have hsame : SameBut [js "current" ++ tmpSuffix P.pid now] dir t t' := sameBut_writeFile hwrite
    have hedge : Edge P B dir t t' := edge_scratch (hG t ht).1 hsame hscratch
    refine ⟨hedge, t, ht, hedge.1, archive_scratch hsame hscratch, ?_⟩
    rw [FileTree.node_writeFile hwrite, if_pos rfl]
  · refine Trail.renameSync_ok ?_ ?_ ?_
    · rw [resolved_tmpCurrent hdir]
      refine hplain.concat ?_
      rw [List.mem_append, not_or]
      exact ⟨by decide, nul_not_mem_tmpSuffix _ _⟩
    · rw [resolved_current hdir]
      exact hplain.concat (by decide)
    · rintro t' ⟨t, ht, htidy, harchive, hfile⟩
      rw [resolved_tmpCurrent hdir, resolved_current hdir]
      obtain ⟨t'', hrename⟩ : ∃ t'', t'.rename (dir ++ [js "current" ++ tmpSuffix P.pid now]) (dir ++ [js "current"]) = some t'' := by
        refine FileTree.exists_rename_file hfile ?_ (by simp) ?_ ?_
        · rw [entry_prefix_iff]
          exact hscratch.1
        · rw [List.dropLast_concat]
          exact t'.closed _ _ (by rw [hfile]; simp)
        · intro hnode
          obtain ⟨k, hk⟩ := htidy.pointer _ hnode
          cases hk
      have hhas : (archive P dir t').Has n := by
        rw [harchive]
        exact (hG t ht).2
      obtain ⟨hedge, hmoved, hpointer⟩ := edge_point htidy hrename hscratch hfile hhas
      exact ⟨t'', hrename, hedge, t, ht, hedge.1, by rw [hmoved, harchive], hpointer⟩

/-- What `storeCert` writes. -/
def IsBundle (certPem keyPem : Value) (certMeta : Json) (x : Bundle) : Prop :=
  ∃ cert key storedAt, certPem = some (.str cert) ∧ keyPem = some (.str key) ∧
    x = ⟨some (.file (.text cert)), some (.file (.text key)), some (.file (.json (storedMeta certMeta storedAt)))⟩

variable (P) in
/-- The generation `n` was added to those of `t₀`, the three newest are there, and it is the current one. -/
def Stored (dir : List JsString) (t₀ : Tree) (n : ℤ) (t : Tree) : Prop :=
  ∃ all : List ℤ, all.Pairwise (· < ·) ∧ (∀ m, m ∈ all ↔ m = n ∨ (archive P dir t₀).Has m) ∧
    (∀ m, (archive P dir t₀).Has m → m < n) ∧
    (∀ m, (archive P dir t).Has m ↔ m ∈ all.drop (all.length - retainedGenerations)) ∧
    t.node (dir ++ [js "current"]) = some (.file (.text (intText n)))

/-- The next number is greater than all others. -/
theorem lt_nextGen {gens : List ℤ} (h : gens.Pairwise (· < ·)) (hm : m ∈ gens) : m < gens.getLast?.getD 0 + 1 := by
  obtain ⟨init, last, rfl⟩ := (List.eq_nil_or_concat gens).resolve_left (List.ne_nil_of_mem hm)
  rw [List.concat_eq_append] at h hm ⊢
  rw [List.getLast?_concat, Option.getD_some]
  rcases List.mem_append.mp hm with hm | hm
  · have hlt := (List.pairwise_append.mp h).2.2 m hm last (List.mem_singleton_self last)
    omega
  · rw [List.mem_singleton.mp hm]
    omega

/-- The greatest number is among the last. -/
theorem mem_drop_of_greatest {all : List ℤ} {k : ℕ} (h : all.Pairwise (· < ·)) (hn : n ∈ all) (hgreatest : ∀ m ∈ all, m ≤ n)
    (hk : k < all.length) : n ∈ all.drop k := by
  have hsplit : all.take k ++ all.drop k = all := List.take_append_drop k all
  rw [← hsplit] at h hn
  refine (List.mem_append.mp hn).resolve_left fun htaken => ?_
  have hlt := (List.pairwise_append.mp h).2.2 n htaken all[k] (by rw [List.drop_eq_getElem_cons hk]; exact List.mem_cons_self)
  exact absurd (hgreatest _ (List.getElem_mem hk)) (not_le.mpr hlt)

variable (P) in
/-- While the oldest generations are removed: those before `k` are gone. -/
structure Pruning (dir : List JsString) (all : List ℤ) (n : ℤ) (k : ℕ) (t : Tree) : Prop where
  tidy : Tidy P dir t
  has : ∀ m, (archive P dir t).Has m ↔ m ∈ all.drop k
  pointer : t.node (dir ++ [js "current"]) = some (.file (.text (intText n)))

theorem Pruning.step {all : List ℤ} {k : ℕ} (h : Pruning P dir all n k t) (hsorted : all.Pairwise (· < ·))
    (hlast : n ∈ all.drop (k + 1)) (hk : k < all.length) : Edge P B dir t (t.remove (dir ++ [genName all[k]])) ∧
      Pruning P dir all n (k + 1) (t.remove (dir ++ [genName all[k]])) := by
  have hdrop : all.drop k = all[k] :: all.drop (k + 1) := List.drop_eq_getElem_cons hk
  have hrest : ∀ m ∈ all.drop (k + 1), all[k] < m := by
    have hpairs := hsorted.sublist (List.drop_sublist k all)
    rw [hdrop, List.pairwise_cons] at hpairs
    exact hpairs.1
  have hcurrent : (archive P dir t).current = some n := by
    simp only [archive, currentAt, h.pointer, integer_intText]
  have hne : (archive P dir t).current ≠ some all[k] := by
    rw [hcurrent, Ne, Option.some.injEq]
    exact (hrest n hlast).ne'
  obtain ⟨hedge, harchive⟩ := edge_prune (B := B) h.tidy hne
    ⟨n, hrest n hlast, (h.has n).mpr (by rw [hdrop]; exact List.mem_cons_of_mem _ hlast)⟩
  refine ⟨hedge, hedge.1, fun m => ?_, ?_⟩
  · rw [harchive, Archive.has_update_none]
    have hhas : (archive P dir t).Has m ↔ m = all[k] ∨ m ∈ all.drop (k + 1) := by rw [h.has, hdrop, List.mem_cons]
    rw [show Archive.Has (archive P dir t) m ↔ _ from hhas]
    constructor
    · rintro ⟨hmk, hm⟩
      exact hm.resolve_left hmk
    · intro hm
      exact ⟨(hrest m hm).ne', .inr hm⟩
  · rw [FileTree.node_remove (by simp), if_neg, h.pointer]
    rw [entry_prefix_iff]
    exact fun heq => current_ne_genName _ heq.symm

/-- Removing all but the three newest. -/
theorem prune_spec {all : List ℤ} (hdir : resolved cwd (nameDir certsDir name) = dir) (hsorted : all.Pairwise (· < ·))
    (hn : n ∈ all.drop (all.length - retainedGenerations))
    (hE : ∀ (G : Tree → Prop) e v, Trail (Edge P B dir) base cwd G v → E e v) :
    Act.Triple (Trail (Edge P B dir) base cwd (Pruning P dir all n 0))
      (Act.forEach (all.take (all.length - retainedGenerations)) fun gen => rmSync (genDir certsDir name gen))
      (fun _ => Trail (Edge P B dir) base cwd (Pruning P dir all n (all.length - retainedGenerations))) E := by
  let Left : List ℤ → Tree → Prop := fun todo t => ∃ done,
    all.take (all.length - retainedGenerations) = done ++ todo ∧ Pruning P dir all n done.length t
  refine (Act.Triple.forEachLeft (I := fun todo => Trail (Edge P B dir) base cwd (Left todo)) (fun gen todo => ?_) _).conseq
    (fun v hv => hv.imp fun ht => ⟨[], rfl, ht⟩) (fun _ v hv => hv.imp ?_) fun _ _ hv => hv
  · refine Trail.rmSync (fun t ht => ?_) (hE _)
    obtain ⟨done, hsplit, hpruning⟩ := ht
    rw [resolved_genDir hdir]
    have hlength : done.length + (todo.length + 1) = all.length - retainedGenerations := by
      have h := congrArg List.length hsplit
      rw [List.length_take, Nat.min_eq_left (Nat.sub_le _ _), List.length_append, List.length_cons] at h
      exact h.symm
    have hk : done.length < all.length := by omega
    have hgen : gen = all[done.length] := by
      have h : (all.take (all.length - retainedGenerations))[done.length]? = some gen := by rw [hsplit]; simp
      rw [List.getElem?_take_of_lt (by omega), List.getElem?_eq_getElem hk] at h
      exact (Option.some.inj h).symm
    have hlast : n ∈ all.drop (done.length + 1) := by
      refine List.mem_of_mem_drop (i := all.length - retainedGenerations - (done.length + 1)) ?_
      rwa [List.drop_drop, Nat.add_sub_cancel' (by omega)]
    rw [hgen]
    obtain ⟨hedge, hnext⟩ := hpruning.step (B := B) hsorted hlast hk
    exact ⟨hedge, done ++ [all[done.length]], by rw [hsplit, ← hgen, List.append_assoc]; rfl, by simpa using hnext⟩
  · rintro ⟨done, hsplit, hpruning⟩
    have hlength := congrArg List.length hsplit
    rw [List.length_take, Nat.min_eq_left (Nat.sub_le _ _), List.append_nil] at hlength
    rwa [hlength]

/-- **`storeCert`** publishes the new generation, makes it current and keeps the three newest; however it ends, each of its
changes is a move of the archive. -/
theorem storeNamed_spec (hdir : resolved cwd (nameDir certsDir name) = dir) (htidy : Tidy P dir t₀) {certPem keyPem : Value}
    {certMeta : Json} (hB : ∀ x, IsBundle certPem keyPem certMeta x → B x) :
    Act.Triple (Trail (Edge P B dir) base cwd (· = t₀)) (storeNamed P certsDir name certPem keyPem certMeta)
      (fun n => Trail (Edge P B dir) base cwd fun t => Tidy P dir t ∧ Stored P dir t₀ n t)
      fun _ => Trail (Edge P B dir) base cwd fun _ => True := by
  have hE : ∀ {G : Tree → Prop} (e : JsError) v, Trail (Edge P B dir) base cwd G v →
      Trail (Edge P B dir) base cwd (fun _ => True) v := fun e v hv => hv.imp fun _ => trivial
  refine Act.Triple.bind (listGenerations_spec (by rw [hdir]; exact htidy) hE) fun gens => ?_
  rw [hdir]
  obtain ⟨n, hn⟩ : ∃ n, n = gens.getLast?.getD 0 + 1 := ⟨_, rfl⟩
  refine Act.Triple.bind Trail.readNow fun now => ?_
  simp only [← hn]
  -- the temporary directory
  obtain ⟨tmp, htmp⟩ : ∃ tmp, tmp = genName n ++ tmpSuffix P.pid now := ⟨_, rfl⟩
  have hscratch : Scratch P tmp := by
    rw [htmp]
    exact scratch_tmpDir n P.pid now
  have hfile : ∀ file, Normal.IsName file →
      resolved cwd (joinPath (genDir certsDir name n ++ tmpSuffix P.pid now) file) = dir ++ tmp :: [file] := by
    intro file hfile
    rw [resolved_tmpFile hdir n P.pid now hfile, htmp]
  let Made : Tree → Prop := fun t => (Plain dir ∧ Lists P dir t₀ gens) ∧ Tidy P dir t ∧ archive P dir t = archive P dir t₀ ∧
    t.node (dir ++ [tmp]) = some .dir
  -- a file that is written there leaves the rest alone
  have hwrite : ∀ {t t' : Tree} {file : JsString} {c : Content}, Made t → t.writeFile (dir ++ tmp :: [file]) c = some t' →
      Edge P B dir t t' ∧ Made t' ∧ t'.node (dir ++ tmp :: [file]) = some (.file c) ∧
        ∀ other, other ≠ file → t'.node (dir ++ tmp :: [other]) = t.node (dir ++ tmp :: [other]) := by
    intro t t' file c ht hwrite
    obtain ⟨hlists, htidy, harchive, hthere⟩ := ht
    have hsame : SameBut [tmp] dir t t' := sameBut_writeFile hwrite
    have hedge : Edge P B dir t t' := edge_scratch htidy hsame hscratch
    have hnode := FileTree.node_writeFile hwrite
    refine ⟨hedge, ⟨hlists, hedge.1, (archive_scratch hsame hscratch).trans harchive, ?_⟩, ?_, fun other hother => ?_⟩
    · rw [hnode, if_neg (by simp), hthere]
    · rw [hnode, if_pos rfl]
    · rw [hnode, if_neg (by simpa using hother)]
  refine Act.Triple.bind (Q := fun _ => Trail (Edge P B dir) base cwd Made) ?_ fun _ => ?_
  · refine Trail.mkdirSync (fun t t' hplain ht hmk => ?_) hE
    rw [resolved_tmpDir hdir, ← htmp] at hplain hmk
    have hplain : Plain dir := fun s hs => hplain s (List.mem_append_left _ hs)
    obtain ⟨rfl, hlists⟩ := ht
    have hsame : SameBut [tmp] dir t t' := sameBut_mkdirp hmk
    have hedge : Edge P B dir t t' := edge_scratch htidy hsame hscratch
    refine ⟨hedge, ⟨hplain, hlists hplain⟩, hedge.1, archive_scratch hsame hscratch, ?_⟩
    rw [FileTree.node_mkdirp hmk, if_pos List.prefix_rfl]
  refine Act.Triple.bind (Q := fun _ => Trail (Edge P B dir) base cwd fun t => Made t ∧ ∃ cert, certPem = some (.str cert) ∧
    t.node (dir ++ tmp :: [js "fullchain.pem"]) = some (.file (.text cert))) ?_ fun _ => ?_
  · refine Trail.writeSent (fun cert t t' hcert ht hw => ?_) hE
    rw [hfile _ (Normal.isName_of_length (by decide) (by decide))] at hw
    obtain ⟨hedge, hmade, hthere, -⟩ := hwrite ht hw
    exact ⟨hedge, hmade, cert, hcert, hthere⟩
  refine Act.Triple.bind (Q := fun _ => Trail (Edge P B dir) base cwd fun t => Made t ∧ ∃ cert key, certPem = some (.str cert) ∧
    keyPem = some (.str key) ∧ t.node (dir ++ tmp :: [js "fullchain.pem"]) = some (.file (.text cert)) ∧
    t.node (dir ++ tmp :: [js "key.pem"]) = some (.file (.text key))) ?_ fun _ => ?_
  · refine Trail.writeSent (fun key t t' hkey ht hw => ?_) hE
    rw [hfile _ (Normal.isName_of_length (by decide) (by decide))] at hw
    obtain ⟨ht, cert, hcert, hfull⟩ := ht
    obtain ⟨hedge, hmade, hthere, hother⟩ := hwrite ht hw
    exact ⟨hedge, hmade, cert, key, hcert, hkey, (hother _ (by decide)).trans hfull, hthere⟩
  refine Act.Triple.bind Trail.readNow fun storedAt => ?_
  refine Act.Triple.bind (Q := fun _ => Trail (Edge P B dir) base cwd fun t => Made t ∧
    B ⟨t.node (dir ++ tmp :: [js "fullchain.pem"]), t.node (dir ++ tmp :: [js "key.pem"]), t.node (dir ++ tmp :: [js "meta.json"])⟩)
    ?_ fun _ => ?_
  · refine Trail.writeFileSync (fun t t' ht hw => ?_) hE
    rw [hfile _ (Normal.isName_of_length (by decide) (by decide))] at hw
    obtain ⟨ht, cert, key, hcert, hkey, hfull, hkeyFile⟩ := ht
    obtain ⟨hedge, hmade, hthere, hother⟩ := hwrite ht hw
    refine ⟨hedge, hmade, hB _ ⟨cert, key, P.toISOString storedAt, hcert, hkey, ?_⟩⟩
    rw [hother _ (by decide), hother _ (by decide), hfull, hkeyFile, hthere]
  -- the new generation
  refine Act.Triple.bind (Q := fun _ => Trail (Edge P B dir) base cwd fun t => (Plain dir ∧ Lists P dir t₀ gens) ∧ Tidy P dir t ∧
    ∀ m, (archive P dir t).Has m ↔ m = n ∨ m ∈ gens) ?_ fun _ => ?_
  · refine Trail.renameSync (fun t t' ht hrename => ?_) hE
    rw [resolved_tmpDir hdir, ← htmp, resolved_genDir hdir] at hrename
    obtain ⟨⟨⟨hplain, hlists⟩, htidy, harchive, hthere⟩, hbundle⟩ := ht
    have hhas : ∀ m, (archive P dir t).Has m ↔ m ∈ gens := by
      intro m
      rw [harchive, hlists.2]
    have hnew : ∀ m, (archive P dir t).Has m → m < n := by
      intro m hm
      rw [hn]
      exact lt_nextGen hlists.1 ((hhas m).mp hm)
    obtain ⟨hedge, hpublished⟩ := edge_publish htidy hrename hscratch hthere hnew hbundle
    refine ⟨hedge, ⟨hplain, hlists⟩, hedge.1, fun m => ?_⟩
    rw [hpublished, hhas]
  refine Act.Triple.assume (p := Plain dir ∧ Lists P dir t₀ gens) (fun v hv => hv.now.1) fun hread => ?_
  obtain ⟨hplain, hlists⟩ := hread
  refine Act.Triple.bind (writeCurrentGeneration_spec (n := n) hdir hplain (fun t ht => ⟨ht.2.1, (ht.2.2 n).mpr (.inl rfl)⟩) hE) fun _ => ?_
  -- the old ones
  obtain ⟨all, hall⟩ : ∃ all, all = sortBy (fun a b => a - b) (gens ++ [n]) := ⟨_, rfl⟩
  have hbefore : ∀ m, (archive P dir t₀).Has m → m < n := by
    intro m hm
    rw [hn]
    exact lt_nextGen hlists.1 ((hlists.2 m).mpr hm)
  have hmem : ∀ m, m ∈ all ↔ m = n ∨ m ∈ gens := by
    intro m
    rw [hall, (sortBy_perm _ _).mem_iff, List.mem_append, List.mem_singleton, or_comm]
  have hsorted : all.Pairwise (· < ·) := by
    rw [hall]
    refine pairwise_lt_of_sorted ?_
    rw [List.nodup_append]
    refine ⟨hlists.1.imp fun h => h.ne, List.nodup_singleton n, fun a ha b hb => ?_⟩
    rw [List.mem_singleton.mp hb]
    exact (hbefore a ((hlists.2 a).mp ha)).ne
  have hkept : n ∈ all.drop (all.length - retainedGenerations) := by
    have hthere : n ∈ all := (hmem n).mpr (.inl rfl)
    refine mem_drop_of_greatest hsorted hthere (fun m hm => ?_) ?_
    · rcases (hmem m).mp hm with rfl | hm
      · exact le_rfl
      · exact (hbefore m ((hlists.2 m).mp hm)).le
    · exact Nat.sub_lt (List.length_pos_of_mem hthere) (by decide)
  rw [← hall]
  refine Act.Triple.bind ((prune_spec hdir hsorted hkept fun _ => hE).conseq (fun v hv => hv.imp ?_) (fun _ _ hv => hv)
    fun _ _ hv => hv) fun _ => ?_
  · rintro ⟨t, ⟨-, -, hhas⟩, htidy, harchive, hpointer⟩
    refine ⟨htidy, fun m => ?_, hpointer⟩
    rw [harchive, List.drop_zero, hmem, ← hhas]
    rfl
  · refine Act.Triple.pure fun v hv => hv.imp fun ht => ⟨ht.tidy, all, hsorted, fun m => ?_, hbefore, ht.has, ht.pointer⟩
    rw [hmem, hlists.2]

end Calls

end Wanfw.Orchestrator.Certs
