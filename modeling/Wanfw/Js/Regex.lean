import Wanfw.Js.Strings

/-!
# Regular expressions

The regular expressions of this development repeat single characters only
(`[^"]*`, `\s+`, `\d+`), never a compound expression. `Re` is the syntax of
these. `Re.run` lists the ways an expression matches a prefix of the input, in
the order in which the language's backtracking matcher would try them, so that
the first of them is the match: the longest repetition first, or the shortest
for a lazy one.

`Re.search` is the leftmost match (`exec`, `match` without the flag `g`), and
`Re.scan` the successive matches of a loop over `exec` with the flag `g`.

`mem_run_seq` and its like say which matches there are, whatever their order;
`exec_between` says which one is first for a text between two others.
-/

namespace Wanfw.Js

/-- Regular expressions with repetitions of single characters. -/
inductive Re where
  /-- The empty expression. -/
  | eps
  /-- A character of a class. -/
  | cls (p : UInt16 → Bool)
  /-- Any number of characters of a class, as many or as few as possible. -/
  | star (greedy : Bool) (p : UInt16 → Bool)
  | seq (a b : Re)
  | alt (a b : Re)
  /-- A capturing group. -/
  | group (i : ℕ) (r : Re)
  /-- `^`. -/
  | bol
  /-- `$`. -/
  | eol

/-- A match: its text, what follows it, and the captured groups. -/
structure Match where
  text : JsString
  rest : JsString
  groups : List (ℕ × JsString)
  deriving DecidableEq

namespace Match

/-- `m[i]`. -/
def group (m : Match) (i : ℕ) : Option JsString := (m.groups.find? fun g => g.1 == i).map (·.2)

/-- The match of two expressions in turn. -/
def append (m m' : Match) : Match := ⟨m.text ++ m'.text, m'.rest, m.groups ++ m'.groups⟩

/-- The match of a group. -/
def capture (m : Match) (i : ℕ) : Match := { m with groups := m.groups ++ [(i, m.text)] }

end Match

/-- The prefixes of `s` over a class, shortest first. -/
def runs (p : UInt16 → Bool) : JsString → List Match
  | [] => [⟨[], [], []⟩]
  | u :: s => ⟨[], u :: s, []⟩ :: if p u then (runs p s).map fun m => { m with text := u :: m.text } else []

namespace Re

/-- The ways `r` matches a prefix of `s`, in order of preference; `start` tells whether `s` is the whole input. -/
@[simp] def run : Re → Bool → JsString → List Match
  | .eps, _, s => [⟨[], s, []⟩]
  | .cls _, _, [] => []
  | .cls p, _, u :: s => if p u then [⟨[u], s, []⟩] else []
  | .star greedy p, _, s => if greedy then (runs p s).reverse else runs p s
  | .seq a b, start, s =>
    (run a start s).flatMap fun m => (run b (start && m.text.isEmpty) m.rest).map m.append
  | .alt a b, start, s => run a start s ++ run b start s
  | .group i r, start, s => (run r start s).map fun m => m.capture i
  | .bol, start, s => if start then [⟨[], s, []⟩] else []
  | .eol, _, s => if s.isEmpty then [⟨[], s, []⟩] else []

/-- The leftmost match in `s`, with the text before it. -/
def search (r : Re) (start : Bool) : JsString → Option (JsString × Match)
  | [] => (r.run start []).head?.map fun m => ([], m)
  | u :: s =>
    match (r.run start (u :: s)).head? with
    | some m => some ([], m)
    | none => (search r false s).map fun (before, m) => (u :: before, m)

/-- `s.match(r)`. -/
def exec (r : Re) (s : JsString) : Option Match := (r.search true s).map (·.2)

/-- `r.test(s)`. -/
def test (r : Re) (s : JsString) : Bool := (r.exec s).isSome

/-- The successive matches of `r` in `s`, at most `fuel` of them. -/
def scanAux (r : Re) : ℕ → Bool → JsString → List Match
  | 0, _, _ => []
  | fuel + 1, start, s =>
    match r.search start s with
    | some (_, m) => m :: scanAux r fuel false m.rest
    | none => []

/-- The matches of a loop over `r.exec(s)` with the flag `g`, for an expression that
does not match the empty string. -/
def scan (r : Re) (s : JsString) : List Match := r.scanAux (s.length + 1) true s

/-! ### Syntax -/

/-- A character. -/
def chr (c : UInt16) : Re := .cls (· == c)

/-- The lower case of an ASCII letter. -/
def lower (u : UInt16) : UInt16 := if 65 ≤ u.toNat ∧ u.toNat ≤ 90 then u + 32 else u

/-- A character, up to the case of ASCII letters (flag `i`). -/
def chrI (c : UInt16) : Re := .cls fun u => lower u == lower c

/-- A text. -/
def lit (s : JsString) : Re := s.foldr (fun c r => .seq (chr c) r) .eps

/-- A text, up to case. -/
def litI (s : JsString) : Re := s.foldr (fun c r => .seq (chrI c) r) .eps

/-- `r?`. -/
def opt (r : Re) : Re := .alt r .eps

/-- `[p]+`. -/
def plus (p : UInt16 → Bool) : Re := .seq (.cls p) (.star true p)

/-- The expressions in turn. -/
def seqs : List Re → Re
  | [] => .eps
  | r :: rs => .seq r (seqs rs)

end Re

/-- `\s`. -/
def isSpace (u : UInt16) : Bool :=
  (9 ≤ u.toNat && u.toNat ≤ 13) || u == 32 || u == 160 || u == 0x1680 || (0x2000 ≤ u.toNat && u.toNat ≤ 0x200A) ||
    u == 0x2028 || u == 0x2029 || u == 0x202F || u == 0x205F || u == 0x3000 || u == 0xFEFF

/-- `\d`. -/
def isDigit (u : UInt16) : Bool := 48 ≤ u.toNat && u.toNat ≤ 57

/-- `[a-z]`. -/
def isLower (u : UInt16) : Bool := 97 ≤ u.toNat && u.toNat ≤ 122

/-- `s.trim()`. -/
def trim (s : JsString) : JsString := ((s.dropWhile isSpace).reverse.dropWhile isSpace).reverse

theorem trim_eq_self {t : JsString} (h : ∀ u ∈ t, isSpace u = false) : trim t = t := by
  have hspace : ∀ s : JsString, (∀ u ∈ s, isSpace u = false) → s.dropWhile isSpace = s := by
    intro s hs
    cases s with
    | nil => rfl
    | cons u s => exact List.dropWhile_cons_of_neg (by simp [hs u])
  rw [trim, hspace t h, hspace _ fun u hu => h u (List.mem_reverse.mp hu), List.reverse_reverse]

theorem mem_trim {t : JsString} {u : UInt16} (hu : u ∈ t) (hspace : isSpace u = false) : u ∈ trim t := by
  have hdrop : ∀ s : JsString, u ∈ s → u ∈ s.dropWhile isSpace := by
    intro s hs
    rw [← List.takeWhile_append_dropWhile (p := isSpace) (l := s)] at hs
    rcases List.mem_append.mp hs with hs | hs
    · have hfalse := List.mem_takeWhile_imp hs
      rw [hspace] at hfalse
      cases hfalse
    · exact hs
  exact List.mem_reverse.mpr (hdrop _ (List.mem_reverse.mpr (hdrop t hu)))

theorem trim_ne_nil {s : JsString} {u : UInt16} (hu : u ∈ s) (hspace : isSpace u = false) : trim s ≠ [] :=
  List.ne_nil_of_mem (mem_trim hu hspace)

/-! ### Which matches there are -/

namespace Re

section Mem

variable {p : UInt16 → Bool} {a b r : Re} {start : Bool} {s t : JsString} {m : Match}

theorem mem_runs : m ∈ runs p s ↔ m.groups = [] ∧ s = m.text ++ m.rest ∧ ∀ u ∈ m.text, p u = true := by
  obtain ⟨text, rest, groups⟩ := m
  induction s generalizing text with
  | nil =>
    simp only [runs, List.mem_singleton, Match.mk.injEq]
    constructor
    · rintro ⟨rfl, rfl, rfl⟩
      simp
    · rintro ⟨rfl, h, -⟩
      obtain ⟨rfl, rfl⟩ := List.append_eq_nil_iff.mp h.symm
      simp
  | cons u s ih =>
    simp only [runs, List.mem_cons, Match.mk.injEq]
    constructor
    · rintro (⟨rfl, rfl, rfl⟩ | h)
      · simp
      · split at h
        · rename_i hu
          obtain ⟨⟨x, y, g⟩, hm, heq⟩ := List.mem_map.mp h
          cases heq
          obtain ⟨hg, hs, hall⟩ := (ih x).mp hm
          exact ⟨hg, by rw [hs]; rfl, by simpa [hu] using hall⟩
        · cases h
    · rintro ⟨rfl, hs, hall⟩
      cases text with
      | nil => exact .inl ⟨rfl, hs.symm, rfl⟩
      | cons v x =>
        obtain ⟨rfl, rfl⟩ := List.cons.inj hs
        have hu : p u = true := hall u (by simp)
        rw [if_pos hu]
        refine .inr (List.mem_map.mpr ⟨⟨x, rest, []⟩, (ih x).mpr ⟨rfl, rfl, fun w hw => hall w (by simp [hw])⟩, rfl⟩)

theorem mem_run_star {greedy : Bool} :
    m ∈ (star greedy p).run start s ↔ m.groups = [] ∧ s = m.text ++ m.rest ∧ ∀ u ∈ m.text, p u = true := by
  rw [← mem_runs, run]
  split
  · rw [List.mem_reverse]
  · rfl

theorem mem_run_cls : m ∈ (cls p).run start s ↔ ∃ u, p u = true ∧ s = u :: m.rest ∧ m = ⟨[u], m.rest, []⟩ := by
  obtain ⟨text, rest, groups⟩ := m
  cases s with
  | nil => simp [run]
  | cons u s =>
    rw [run]
    split
    · rename_i hu
      simp only [List.mem_singleton, Match.mk.injEq, List.cons.injEq]
      constructor
      · rintro ⟨rfl, rfl, rfl⟩
        exact ⟨u, hu, ⟨rfl, rfl⟩, by simp⟩
      · rintro ⟨v, -, ⟨rfl, rfl⟩, rfl, -, rfl⟩
        exact ⟨rfl, rfl, rfl⟩
    · rename_i hu
      simp only [List.not_mem_nil, false_iff]
      rintro ⟨v, hv, hs, -⟩
      cases hs
      exact hu hv

theorem mem_run_seq :
    m ∈ (seq a b).run start s ↔
      ∃ m₁ ∈ a.run start s, ∃ m₂ ∈ b.run (start && m₁.text.isEmpty) m₁.rest, m = m₁.append m₂ := by
  rw [run, List.mem_flatMap]
  constructor
  · rintro ⟨m₁, h₁, h⟩
    obtain ⟨m₂, h₂, rfl⟩ := List.mem_map.mp h
    exact ⟨m₁, h₁, m₂, h₂, rfl⟩
  · rintro ⟨m₁, h₁, m₂, h₂, rfl⟩
    exact ⟨m₁, h₁, List.mem_map.mpr ⟨m₂, h₂, rfl⟩⟩

theorem run_seq_ne_nil (h : m ∈ a.run start s) (hb : b.run (start && m.text.isEmpty) m.rest ≠ []) :
    (seq a b).run start s ≠ [] := by
  obtain ⟨m', h'⟩ := List.exists_mem_of_ne_nil _ hb
  exact List.ne_nil_of_mem (mem_run_seq.mpr ⟨m, h, m', h', rfl⟩)

theorem run_seq_eps : (seq a .eps).run start s = a.run start s := by
  rw [run]
  simp only [run, List.map_singleton, Match.append, List.append_nil]
  exact List.flatMap_singleton' _

theorem run_lit : (lit t).run start s = if t <+: s then [⟨t, s.drop t.length, []⟩] else [] := by
  induction t generalizing start s with
  | nil => simp [lit, run]
  | cons c t ih =>
    rw [show lit (c :: t) = .seq (chr c) (lit t) from rfl, run, chr]
    cases s with
    | nil => simp [run]
    | cons u s =>
      rw [run]
      by_cases hu : u = c
      · subst hu
        simp only [beq_self_eq_true, if_true, List.flatMap_cons, List.flatMap_nil, List.append_nil, ih]
        by_cases ht : t <+: s
        · rw [if_pos ht, if_pos ((List.prefix_cons_inj u).mpr ht)]
          simp [Match.append]
        · rw [if_neg ht, if_neg (fun h => ht ((List.prefix_cons_inj u).mp h))]
          rfl
      · rw [if_neg (by simpa using hu), if_neg]
        · rfl
        · rintro ⟨z, hz⟩
          exact hu (List.cons.inj hz).1.symm

theorem mem_run_lit : m ∈ (lit t).run start s ↔ s = t ++ m.rest ∧ m = ⟨t, m.rest, []⟩ := by
  rw [run_lit]
  split
  · rename_i h
    obtain ⟨z, rfl⟩ := h
    rw [List.drop_left, List.mem_singleton]
    constructor
    · rintro rfl
      exact ⟨rfl, rfl⟩
    · rintro ⟨h, hm⟩
      rw [hm, List.append_cancel_left h]
  · rename_i h
    simp only [List.not_mem_nil, false_iff]
    rintro ⟨hs, -⟩
    exact h ⟨m.rest, hs.symm⟩

theorem mem_run_alt : m ∈ (alt a b).run start s ↔ m ∈ a.run start s ∨ m ∈ b.run start s := by
  rw [run, List.mem_append]

theorem mem_run_group {i : ℕ} : m ∈ (group i r).run start s ↔ ∃ m' ∈ r.run start s, m = m'.capture i := by
  rw [run, List.mem_map]
  exact ⟨fun ⟨m', h, he⟩ => ⟨m', h, he.symm⟩, fun ⟨m', h, he⟩ => ⟨m', h, he.symm⟩⟩

/-- A match is a prefix of what it was tried on. -/
theorem text_append_rest (h : m ∈ r.run start s) : s = m.text ++ m.rest := by
  induction r generalizing start s m with
  | eps =>
    rw [run, List.mem_singleton] at h
    rw [h]
    rfl
  | cls p =>
    obtain ⟨u, -, hs, hm⟩ := mem_run_cls.mp h
    rw [hm]
    exact hs
  | star greedy p => exact (mem_run_star.mp h).2.1
  | seq a b iha ihb =>
    obtain ⟨m₁, h₁, m₂, h₂, rfl⟩ := mem_run_seq.mp h
    rw [iha h₁, ihb h₂, Match.append, List.append_assoc]
  | alt a b iha ihb =>
    rcases mem_run_alt.mp h with h | h
    · exact iha h
    · exact ihb h
  | group i r ih =>
    obtain ⟨m', h', rfl⟩ := mem_run_group.mp h
    have := ih h'
    exact this
  | bol =>
    rw [run] at h
    split at h
    · rw [List.mem_singleton] at h
      rw [h]
      rfl
    · cases h
  | eol =>
    rw [run] at h
    split at h
    · rw [List.mem_singleton] at h
      rw [h]
      rfl
    · cases h

end Mem

/-- The characters that an expression can match. -/
def Over (q : UInt16 → Prop) : Re → Prop
  | .cls p | .star _ p => ∀ u, p u = true → q u
  | .seq a b | .alt a b => a.Over q ∧ b.Over q
  | .group _ r => r.Over q
  | _ => True

/-- An expression that takes at least one character. -/
@[simp] def consumes : Re → Bool
  | .cls _ => true
  | .seq a b => a.consumes || b.consumes
  | .alt a b => a.consumes && b.consumes
  | .group _ r => r.consumes
  | _ => false

section Texts

variable {q : UInt16 → Prop} {r : Re} {m : Match} {start : Bool} {s : JsString}

theorem over_lit {t : JsString} (h : ∀ u ∈ t, q u) : (lit t).Over q := by
  induction t with
  | nil => trivial
  | cons c t ih =>
    refine ⟨fun u hu => ?_, ih fun u hu => h u (List.mem_cons_of_mem _ hu)⟩
    exact h u (beq_iff_eq.mp hu ▸ List.mem_cons_self)

theorem text_over (h : r.Over q) (hm : m ∈ r.run start s) : ∀ u ∈ m.text, q u := by
  induction r generalizing start s m with
  | eps =>
    cases List.mem_singleton.mp hm
    simp
  | cls p =>
    obtain ⟨v, hv, -, heq⟩ := mem_run_cls.mp hm
    rw [heq]
    intro u hu
    exact List.mem_singleton.mp hu ▸ h v hv
  | star greedy p => exact fun u hu => h u ((mem_run_star.mp hm).2.2 u hu)
  | seq a b iha ihb =>
    obtain ⟨m₁, h₁, m₂, h₂, rfl⟩ := mem_run_seq.mp hm
    exact fun u hu => (List.mem_append.mp hu).elim (iha h.1 h₁ u) (ihb h.2 h₂ u)
  | alt a b iha ihb => exact (mem_run_alt.mp hm).elim (iha h.1) (ihb h.2)
  | group i r ih =>
    obtain ⟨m', hm', heq⟩ := mem_run_group.mp hm
    rw [heq]
    exact ih (m := m') h hm'
  | bol =>
    rw [run] at hm
    split at hm
    · cases List.mem_singleton.mp hm
      simp
    · cases hm
  | eol =>
    rw [run] at hm
    split at hm
    · cases List.mem_singleton.mp hm
      simp
    · cases hm

theorem text_ne_nil (h : r.consumes = true) (hm : m ∈ r.run start s) : m.text ≠ [] := by
  induction r generalizing start s m with
  | cls p =>
    obtain ⟨v, -, -, heq⟩ := mem_run_cls.mp hm
    rw [heq]
    exact List.cons_ne_nil _ _
  | seq a b iha ihb =>
    obtain ⟨m₁, h₁, m₂, h₂, rfl⟩ := mem_run_seq.mp hm
    rcases Bool.or_eq_true_iff.mp h with h | h
    · exact List.append_ne_nil_of_left_ne_nil (iha h h₁) _
    · exact List.append_ne_nil_of_right_ne_nil _ (ihb h h₂)
  | alt a b iha ihb =>
    obtain ⟨ha, hb⟩ := Bool.and_eq_true_iff.mp h
    exact (mem_run_alt.mp hm).elim (iha ha) (ihb hb)
  | group i r ih =>
    obtain ⟨m', hm', heq⟩ := mem_run_group.mp hm
    rw [heq]
    exact ih (m := m') h hm'
  | _ => cases h

theorem mem_run_eol : m ∈ eol.run start s ↔ s = [] ∧ m = ⟨[], [], []⟩ := by
  rw [run]
  cases s <;> simp

/-- After `^`, an expression is tried at the beginning only. -/
theorem test_bol_iff : (seq .bol r).test s = true ↔ r.run true s ≠ [] := by
  have hrun : ∀ s, (seq .bol r).run false s = [] := fun _ => rfl
  have hsearch : ∀ s, (seq .bol r).search false s = none := by
    intro s
    induction s with
    | nil => rfl
    | cons u s ih => rw [search, hrun, List.head?_nil, ih, Option.map_none]
  have hstart : (seq .bol r).run true s = (r.run true s).map fun m => Match.append ⟨[], s, []⟩ m := by
    simp [run]
  rw [test, exec, Option.isSome_map]
  cases s with
  | nil =>
    rw [search, hstart]
    cases hr : r.run true [] <;> simp
  | cons u s =>
    rw [search, hstart]
    cases hr : r.run true (u :: s) with
    | nil => simp [hsearch]
    | cons m ms => simp

end Texts

/-! ### Which match is first -/

/-- An expression without `^`: it does not matter where in the input it is tried. -/
@[simp] def anchorless : Re → Bool
  | .bol => false
  | .seq a b => a.anchorless && b.anchorless
  | .alt a b => a.anchorless && b.anchorless
  | .group _ r => r.anchorless
  | _ => true

section First

variable {r : Re} {start : Bool} {s : JsString}

theorem run_anchorless (h : r.anchorless = true) : r.run start s = r.run false s := by
  induction r generalizing start s with
  | eps => rfl
  | cls p => cases s <;> rfl
  | star greedy p => rfl
  | seq a b iha ihb =>
    rw [anchorless, Bool.and_eq_true] at h
    rw [run, run, iha h.1]
    refine List.flatMap_congr fun m _ => ?_
    rw [ihb h.2, Bool.false_and]
  | alt a b iha ihb =>
    rw [anchorless, Bool.and_eq_true] at h
    rw [run, run, iha h.1, ihb h.2]
  | group i r ih => rw [run, run, ih h]
  | bol => cases h
  | eol => rfl

theorem search_anchorless (h : r.anchorless = true) : r.search start s = r.search false s := by
  cases s with
  | nil => rw [search, search, run_anchorless h]
  | cons u s => rw [search, search, run_anchorless h]

/-- A search goes past the places where the expression does not match. -/
theorem search_append (h : r.anchorless = true) {x : JsString}
    (hx : ∀ x' y, x = x' ++ y → y ≠ [] → r.run false (y ++ s) = []) :
    r.search start (x ++ s) = (r.search false s).map fun q => (x ++ q.1, q.2) := by
  rw [search_anchorless h]
  induction x with
  | nil => simp
  | cons u x ih =>
    rw [List.cons_append, search, show r.run false (u :: (x ++ s)) = [] from hx [] (u :: x) rfl (by simp)]
    dsimp only [List.head?_nil]
    rw [ih fun x' y hxy hy => hx (u :: x') y (by rw [hxy]; rfl) hy]
    cases r.search false s with
    | none => rfl
    | some q => rfl

theorem search_eq_none_iff (h : r.anchorless = true) :
    r.search start s = none ↔ ∀ x y, s = x ++ y → r.run false y = [] := by
  rw [search_anchorless h]
  constructor
  · intro hnone x y hs
    induction x generalizing s with
    | nil =>
      rw [List.nil_append] at hs
      subst hs
      cases s with
      | nil => simpa [search] using hnone
      | cons u s =>
        rw [search] at hnone
        split at hnone
        · cases hnone
        · rename_i hhead
          exact List.head?_eq_none_iff.mp hhead
    | cons u x ih =>
      subst hs
      rw [List.cons_append, search] at hnone
      split at hnone
      · cases hnone
      · exact ih (Option.map_eq_none_iff.mp hnone) rfl
  · intro hall
    have hskip : r.search false (s ++ []) = (r.search false []).map fun q => (s ++ q.1, q.2) :=
      search_append h fun x' y hs _ => by
        rw [List.append_nil]
        exact hall x' y hs
    rw [List.append_nil] at hskip
    rw [hskip, search, hall s [] (by simp)]
    rfl

theorem scan_eq_nil_iff (h : r.anchorless = true) : r.scan s = [] ↔ ∀ x y, s = x ++ y → r.run false y = [] := by
  have hnone : r.search true s = none ↔ _ := search_eq_none_iff h
  rw [← hnone, scan, scanAux]
  cases r.search true s with
  | none => simp
  | some q => simp

/-- The longest repetition comes first. -/
theorem head?_run_star (p : UInt16 → Bool) :
    ((star true p).run start s).head? = some ⟨s.takeWhile p, s.dropWhile p, []⟩ := by
  rw [run, if_pos rfl, List.head?_reverse]
  induction s with
  | nil => rfl
  | cons u s ih =>
    rw [runs, List.takeWhile_cons, List.dropWhile_cons]
    by_cases hu : p u = true
    · rw [if_pos hu, if_pos hu, if_pos hu, List.getLast?_cons, List.getLast?_map, ih]
      rfl
    · rw [if_neg hu, if_neg hu, if_neg hu]
      rfl

theorem head?_run_seq {a b : Re} {m m' : Match} (ha : (a.run start s).head? = some m)
    (hb : (b.run (start && m.text.isEmpty) m.rest).head? = some m') :
    ((seq a b).run start s).head? = some (m.append m') := by
  rw [run]
  cases hrun : a.run start s with
  | nil => rw [hrun] at ha; cases ha
  | cons m₁ ms =>
    rw [hrun, List.head?_cons] at ha
    cases ha
    rw [List.flatMap_cons, List.head?_append, List.head?_map, hb]
    rfl

theorem head?_run_group {i : ℕ} {m : Match} (h : (r.run start s).head? = some m) :
    ((group i r).run start s).head? = some (m.capture i) := by
  rw [run, List.head?_map, h]
  rfl

/-- The leftmost match is a match of what follows the text before it. -/
theorem search_spec (h : r.anchorless = true) {x : JsString} {m : Match} (hs : r.search start s = some (x, m)) :
    m ∈ r.run false (m.text ++ m.rest) ∧ s = x ++ m.text ++ m.rest := by
  rw [search_anchorless h] at hs
  induction s generalizing x with
  | nil =>
    rw [search] at hs
    obtain ⟨m', hm', heq⟩ := Option.map_eq_some_iff.mp hs
    cases heq
    have hmem := List.mem_of_mem_head? hm'
    have hnil := text_append_rest hmem
    rw [← hnil]
    exact ⟨hmem, by rw [List.nil_append]; exact hnil⟩
  | cons u s ih =>
    rw [search] at hs
    split at hs
    · rename_i m' hm'
      cases hs
      have hmem := List.mem_of_mem_head? hm'
      have hcons := text_append_rest hmem
      rw [← hcons]
      exact ⟨hmem, by rw [List.nil_append]; exact hcons⟩
    · obtain ⟨⟨x', m'⟩, hs', heq⟩ := Option.map_eq_some_iff.mp hs
      cases heq
      obtain ⟨hmem, rfl⟩ := ih hs'
      exact ⟨hmem, rfl⟩

/-- An expression that does not match the empty string. -/
def Proper (r : Re) : Prop := ∀ s, ∀ m ∈ r.run false s, m.text ≠ []

theorem scanAux_anchorless (h : r.anchorless = true) (fuel : ℕ) : r.scanAux fuel start s = r.scanAux fuel false s := by
  cases fuel with
  | zero => rfl
  | succ fuel => rw [scanAux, scanAux, search_anchorless h]

/-- Every match takes something away, so that a fuel beyond the length changes nothing. -/
theorem scanAux_fuel (h : r.anchorless = true) (hr : r.Proper) {fuel fuel' : ℕ} (hf : s.length < fuel)
    (hf' : s.length < fuel') : r.scanAux fuel start s = r.scanAux fuel' start s := by
  induction fuel generalizing fuel' s start with
  | zero => omega
  | succ n ih =>
    obtain ⟨n', rfl⟩ : ∃ n', fuel' = n' + 1 := ⟨fuel' - 1, by omega⟩
    rw [scanAux, scanAux]
    cases hs : r.search start s with
    | none => rfl
    | some q =>
      obtain ⟨x, m⟩ := q
      obtain ⟨hmem, rfl⟩ := search_spec h hs
      have hpos := List.length_pos_of_ne_nil (hr _ m hmem)
      simp only [List.length_append] at hf hf'
      have hrest : r.scanAux n false m.rest = r.scanAux n' false m.rest := ih (by omega) (by omega)
      dsimp only
      rw [hrest]

theorem scan_of_search (h : r.anchorless = true) (hr : r.Proper) {x : JsString} {m : Match}
    (hs : r.search false s = some (x, m)) : r.scan s = m :: r.scan m.rest := by
  obtain ⟨hmem, hsplit⟩ := search_spec h hs
  have hpos := List.length_pos_of_ne_nil (hr _ m hmem)
  have hlen := congrArg List.length hsplit
  simp only [List.length_append] at hlen
  have hrest : r.scanAux s.length false m.rest = r.scanAux (m.rest.length + 1) false m.rest :=
    scanAux_fuel h hr (by omega) (Nat.lt_succ_self _)
  rw [scan, scanAux, search_anchorless h, hs, scan, scanAux_anchorless h]
  dsimp only
  rw [hrest]

theorem mem_scan (h : r.anchorless = true) {m : Match} (hm : m ∈ r.scan s) : ∃ y, m ∈ r.run false y := by
  have haux : ∀ (fuel : ℕ) (start : Bool) (s : JsString), m ∈ r.scanAux fuel start s → ∃ y, m ∈ r.run false y := by
    intro fuel
    induction fuel with
    | zero =>
      intro start s hm
      cases hm
    | succ fuel ih =>
      intro start s hm
      rw [scanAux] at hm
      split at hm
      · rename_i x m' hs
        rcases List.mem_cons.mp hm with rfl | hm
        · exact ⟨_, (search_spec h hs).1⟩
        · exact ih false m'.rest hm
      · cases hm
  exact haux _ _ _ hm

end First

/-! ### A text between two others -/

/-- `o([\s\S]*?)c`. -/
def between (o c : JsString) : Re := .seq (lit o) (.seq (.group 1 (.star false fun _ => true)) (lit c))

section Between

variable {o c s : JsString} {start : Bool}

theorem anchorless_lit (t : JsString) : (lit t).anchorless = true := by
  induction t with
  | nil => rfl
  | cons u t ih => exact ih

theorem anchorless_between (o c : JsString) : (between o c).anchorless = true := by
  simp [between, anchorless, anchorless_lit]

/-- The shortest text before `c` ends at its first occurrence. -/
theorem run_lazy_lit :
    ((seq (.group 1 (.star false fun _ => true)) (lit c)).run start s).head? =
      (cut c s).map fun q => ⟨q.1 ++ c, q.2, [(1, q.1)]⟩ := by
  rw [run_anchorless (by simp [anchorless, anchorless_lit])]
  simp only [run, Bool.false_eq_true, if_false, Bool.false_and, List.flatMap_map, run_lit]
  -- the tails are tried from the longest to the shortest
  suffices key : ∀ pre : JsString, ((runs (fun _ => true) s).flatMap fun m =>
      (if c <+: m.rest then [(⟨c, m.rest.drop c.length, []⟩ : Match)] else []).map
        (Match.append ⟨pre ++ m.text, m.rest, m.groups ++ [(1, pre ++ m.text)]⟩)).head? =
      (cut c s).map fun q => ⟨pre ++ q.1 ++ c, q.2, [(1, pre ++ q.1)]⟩ from key []
  induction s with
  | nil =>
    intro pre
    by_cases hc : c = []
    · subst hc
      simp [runs, cut, Match.append]
    · simp [runs, cut, hc]
  | cons u s ih =>
    intro pre
    rw [runs, cut, List.flatMap_cons]
    by_cases hc : c <+: u :: s
    · simp [hc, Match.append]
    · rw [if_neg hc, if_neg hc, if_pos rfl, List.flatMap_map, List.map_nil, List.nil_append]
      have := ih (pre ++ [u])
      simp only [List.append_assoc, List.singleton_append] at this
      simp only [this, Option.map_map, Function.comp_def, List.append_assoc]

/-- **The first match of `between`**: after the first `o`, up to the first `c` that follows. -/
theorem exec_between :
    (between o c).exec s = (cut o s).bind fun q => (cut c q.2).map fun q' => ⟨o ++ (q'.1 ++ c), q'.2, [(1, q'.1)]⟩ := by
  have hrun : ∀ s : JsString, ((between o c).run false s).head? =
      if o <+: s then (cut c (s.drop o.length)).map fun q => ⟨o ++ (q.1 ++ c), q.2, [(1, q.1)]⟩ else none := by
    intro s
    rw [between, run, run_lit]
    split
    · simp only [List.flatMap_cons, List.flatMap_nil, List.append_nil]
      rw [List.head?_map, run_lazy_lit, Option.map_map]
      rfl
    · rfl
  rw [exec, search_anchorless (anchorless_between o c)]
  induction s with
  | nil =>
    rw [search, hrun, cut]
    by_cases ho : o = []
    · subst ho
      simp [Function.comp_def]
    · simp [ho]
  | cons u s ih =>
    rw [search, hrun, cut]
    by_cases ho : o <+: u :: s
    · rw [if_pos ho, if_pos ho, Option.bind_some]
      cases hc : cut c ((u :: s).drop o.length) with
      | some q => rfl
      | none =>
        -- no later `o` can be followed by a `c` either
        dsimp only [Option.map_none]
        rw [Option.map_map, show (fun x : JsString × Match => x.2) ∘ (fun x : JsString × Match => (u :: x.1, x.2)) =
          fun x => x.2 from rfl, ih]
        cases hcut : cut o s with
        | none => rfl
        | some q =>
          obtain ⟨x, y⟩ := q
          have hs := eq_append_of_cut hcut
          have hsuffix : y <:+ (u :: s).drop o.length := by
            have hy : y <:+ u :: s := ⟨u :: (x ++ o), by rw [hs]; simp⟩
            refine List.suffix_of_suffix_length_le hy (List.drop_suffix _ _) ?_
            rw [hs]
            simp only [List.length_drop, List.length_cons, List.length_append]
            omega
          rw [Option.bind_some, cut_eq_none_of_suffix hc hsuffix]
          rfl
    · rw [if_neg ho, if_neg ho]
      dsimp only
      rw [Option.map_map, show (fun x : JsString × Match => x.2) ∘ (fun x : JsString × Match => (u :: x.1, x.2)) =
        fun x => x.2 from rfl, ih]
      cases cut o s with
      | none => rfl
      | some q => rfl

end Between

end Re

end Wanfw.Js
