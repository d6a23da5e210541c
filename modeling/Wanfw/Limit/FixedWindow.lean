import Mathlib.Data.Int.Order.Basic
import Mathlib.Data.List.Chain
import Mathlib.Data.List.TakeWhile

/-!
# Limits with a fixed window

A counter that allows `cap` calls within a window. The window begins with the first call, and
the next one with the first call that is more than `W` after the beginning (`windows`). Of each
window the first `cap` calls are allowed (`allowed_eq`).

A sliding window would allow at most `cap` calls in every interval of length `W`. The counter
does just when each window begins sparsely enough for what was allowed in the window before it
(`sliding_iff`). It always allows at most twice as many (`allowed_bound`).
-/

namespace Wanfw.Limit

variable (W : ℤ) (cap : ℕ)

/-! ### The counter -/

/-- The beginning of the window and the calls that were allowed in it. -/
abbrev Counter := Option (ℤ × ℕ)

/-- A call. -/
def Counter.call (now : ℤ) : Counter → Bool × Counter
  | none => (true, some (now, 1))
  | some (start, count) =>
    if W < now - start then (true, some (now, 1))
    else if cap ≤ count then (false, some (start, count))
    else (true, some (start, count + 1))

/-- The answers to calls, one after the other. -/
def answers (c : Counter) : List ℤ → List (ℤ × Bool)
  | [] => []
  | now :: nows => (now, (c.call W cap now).1) :: answers (c.call W cap now).2 nows

/-- The calls that are allowed. -/
def allowed (c : Counter) : List ℤ → List ℤ
  | [] => []
  | now :: nows => (if (c.call W cap now).1 then [now] else []) ++ allowed (c.call W cap now).2 nows

/-- The calls by windows. -/
def windows : List ℤ → List (List ℤ)
  | [] => []
  | start :: nows =>
    (start :: nows.takeWhile fun now => now - start ≤ W) :: windows (nows.dropWhile fun now => now - start ≤ W)
termination_by nows => nows.length
decreasing_by
  exact Nat.lt_succ_of_le (List.dropWhile_sublist _).length_le

/-- A window has the calls within `W` of its first one; the next call begins the next window. -/
inductive Split : List ℤ → List (List ℤ) → Prop where
  | nil : Split [] []
  | cons {start : ℤ} {window rest : List ℤ} {wins : List (List ℤ)}
    (hwindow : ∀ now ∈ window, now - start ≤ W)
    (hnext : ∀ now ∈ rest.head?, W < now - start) (hrest : Split rest wins) :
    Split (start :: (window ++ rest)) ((start :: window) :: wins)

/-- What `prev` allowed less than `W` before a call that `next` allows, together with what `next`
allowed so far, is not more than `cap`. -/
def Clears (prev next : List ℤ) : Prop :=
  ∀ (i : ℕ) (now : ℤ), (next.take cap)[i]? = some now →
    (prev.take cap).countP (fun t => now - W ≤ t) + (i + 1) ≤ cap

variable {W cap}

theorem split_windows (nows : List ℤ) : Split W nows (windows W nows) := by
  induction nows using windows.induct W with
  | case1 =>
    rw [windows]
    exact .nil
  | case2 start nows ih =>
    have hsplit : Split W
        (start :: (nows.takeWhile (fun now => now - start ≤ W) ++ nows.dropWhile fun now => now - start ≤ W))
        (windows W (start :: nows)) := by
      rw [windows]
      refine .cons (fun now hnow => by simpa using List.mem_takeWhile_imp hnow) (fun now hnow => ?_) ih
      have hfirst := List.head?_dropWhile_not (fun now => decide (now - start ≤ W)) nows
      rw [Option.mem_def.mp hnow] at hfirst
      exact not_le.mp (show ¬ now - start ≤ W by simpa using hfirst)
    rwa [List.takeWhile_append_dropWhile] at hsplit

/-! ### What is allowed -/

theorem allowed_answers (c : Counter) (nows : List ℤ) :
    allowed W cap c nows = ((answers W cap c nows).filter (·.2)).map (·.1) := by
  induction nows generalizing c with
  | nil => rfl
  | cons now nows ih =>
    rw [allowed, answers, ih]
    cases (c.call W cap now).1 <;> simp

/-- Within a window the counter counts up to its limit. -/
theorem allowed_window {start : ℤ} {count : ℕ} (window rest : List ℤ)
    (h : ∀ now ∈ window, now - start ≤ W)
    (hcount : count ≤ cap) : ∃ count', allowed W cap (some (start, count)) (window ++ rest) =
      window.take (cap - count) ++ allowed W cap (some (start, count')) rest := by
  induction window generalizing count with
  | nil => exact ⟨count, by simp⟩
  | cons now window ih =>
    obtain ⟨hnow, hwindow⟩ := List.forall_mem_cons.mp h
    rw [List.cons_append, allowed, Counter.call, if_neg (not_lt.mpr hnow)]
    by_cases hfull : cap ≤ count
    · obtain ⟨count', ih⟩ := ih hwindow hcount
      refine ⟨count', ?_⟩
      rw [if_pos hfull, ih, Nat.sub_eq_zero_of_le hfull]
      rfl
    · obtain ⟨count', ih⟩ := ih hwindow (Nat.not_le.mp hfull)
      refine ⟨count', ?_⟩
      obtain ⟨k, hk⟩ : ∃ k, cap - count = k + 1 := ⟨cap - count - 1, by omega⟩
      rw [if_neg hfull, ih, hk, show cap - (count + 1) = k by omega]
      rfl

/-- A call after the end of the window begins a new one. -/
theorem allowed_expired {start : ℤ} {count : ℕ} {nows : List ℤ}
    (h : ∀ now ∈ nows.head?, W < now - start) :
    allowed W cap (some (start, count)) nows = allowed W cap none nows := by
  cases nows with
  | nil => rfl
  | cons now nows => simp only [allowed, Counter.call, if_pos (h now rfl)]

theorem Split.allowed_eq {nows : List ℤ} {wins : List (List ℤ)} (h : Split W nows wins)
    (hcap : 0 < cap) : allowed W cap none nows = wins.flatMap (List.take cap) := by
  induction h with
  | nil => rfl
  | @cons start window rest wins hwindow hnext hrest ih =>
    obtain ⟨count, hfirst⟩ := allowed_window window rest hwindow (show 1 ≤ cap from hcap)
    obtain ⟨k, rfl⟩ : ∃ k, cap = k + 1 := ⟨cap - 1, by omega⟩
    have hexpired : allowed W (k + 1) (some (start, count)) rest = allowed W (k + 1) none rest :=
      allowed_expired hnext
    rw [List.flatMap_cons, ← ih, ← hexpired, allowed, Counter.call, hfirst]
    rfl

/-- **The calls that are allowed** are the first `cap` of each window. -/
theorem allowed_eq (hcap : 0 < cap) (nows : List ℤ) :
    allowed W cap none nows = (windows W nows).flatMap (List.take cap) :=
  (split_windows nows).allowed_eq hcap

/-! ### Counting -/

/-- Of an ascending list, the elements up to a bound are the first ones. -/
theorem lt_countP_iff {xs : List ℤ} (hsorted : xs.Pairwise (· ≤ ·)) {i : ℕ} {x b : ℤ}
    (hx : xs[i]? = some x) : i < xs.countP (fun y => y ≤ b) ↔ x ≤ b := by
  induction xs generalizing i with
  | nil => simp at hx
  | cons y xs ih =>
    obtain ⟨hfirst, hrest⟩ := List.pairwise_cons.mp hsorted
    by_cases hy : y ≤ b
    · rw [List.countP_cons_of_pos (by simpa using hy)]
      cases i with
      | zero =>
        rw [List.getElem?_cons_zero, Option.some.injEq] at hx
        exact iff_of_true (Nat.succ_pos _) (hx ▸ hy)
      | succ i =>
        rw [List.getElem?_cons_succ] at hx
        rw [Nat.succ_lt_succ_iff, ih hrest hx]
    · have hnone : (y :: xs).countP (fun y => y ≤ b) = 0 := by
        rw [List.countP_eq_zero]
        intro z hz
        rcases List.mem_cons.mp hz with rfl | hz
        · simpa using hy
        · simpa using (not_le.mp hy).trans_le (hfirst z hz)
      rw [hnone]
      refine iff_of_false (Nat.not_lt_zero i) (not_le.mpr ((not_le.mp hy).trans_le ?_))
      rcases List.mem_cons.mp (List.mem_of_getElem? hx) with rfl | hmem
      · exact le_rfl
      · exact hfirst x hmem

/-- How many calls lie in the interval of length `W` from `a` on. -/
def inInterval (W a : ℤ) (nows : List ℤ) : ℕ := nows.countP fun now => a ≤ now ∧ now ≤ a + W

/-! ### The sliding window -/

section Sliding

variable {nows : List ℤ} {wins : List (List ℤ)}

theorem Split.flatten (h : Split W nows wins) : wins.flatten = nows := by
  induction h with
  | nil => rfl
  | cons hwindow hnext hrest ih => rw [List.flatten_cons, ih, List.cons_append]

/-- What is allowed is among the calls. -/
theorem Split.mem_of_allowed (h : Split W nows wins) {now : ℤ}
    (hnow : now ∈ wins.flatMap (List.take cap)) : now ∈ nows := by
  rw [← h.flatten]
  obtain ⟨window, hwindow, hmem⟩ := List.mem_flatMap.mp hnow
  exact List.mem_flatten.mpr ⟨window, hwindow, List.mem_of_mem_take hmem⟩

/-- After a window everything is later. -/
theorem later_of_head {start : ℤ} {rest : List ℤ} (hsorted : rest.Pairwise (· ≤ ·))
    (hnext : ∀ now ∈ rest.head?, W < now - start) : ∀ now ∈ rest, start + W < now := by
  intro now hnow
  cases rest with
  | nil => cases hnow
  | cons first rest =>
    have hfirst : W < first - start := hnext first rfl
    rcases List.mem_cons.mp hnow with rfl | hnow
    · omega
    · have hle := (List.pairwise_cons.mp hsorted).1 now hnow
      omega

theorem inInterval_append (a : ℤ) (xs ys : List ℤ) :
    inInterval W a (xs ++ ys) = inInterval W a xs + inInterval W a ys :=
  List.countP_append

theorem inInterval_eq_zero {a : ℤ} {xs : List ℤ} (h : ∀ now ∈ xs, a + W < now) :
    inInterval W a xs = 0 := by
  rw [inInterval, List.countP_eq_zero]
  intro now hnow
  have hlt := h now hnow
  simp only [decide_eq_true_eq]
  omega

/-- Two windows of which one clears the other. -/
theorem Clears.bound {prev next : List ℤ} (h : Clears W cap prev next)
    (hsorted : next.Pairwise (· ≤ ·)) (a : ℤ) :
    inInterval W a (prev.take cap) + inInterval W a (next.take cap) ≤ cap := by
  have htake : (next.take cap).Pairwise (· ≤ ·) := hsorted.sublist (List.take_sublist _ _)
  have hnext : inInterval W a (next.take cap) ≤ (next.take cap).countP fun now => now ≤ a + W :=
    List.countP_mono_left fun now _ hin => by simpa using (of_decide_eq_true hin).2
  cases hcount : (next.take cap).countP fun now => now ≤ a + W with
  | zero =>
    have hprev : inInterval W a (prev.take cap) ≤ cap :=
      List.countP_le_length.trans (List.length_take_le _ _)
    omega
  | succ i =>
    -- the last call of `next` in the interval
    have hi : i < (next.take cap).length := by
      have hle := List.countP_le_length (l := next.take cap) (p := fun now => now ≤ a + W)
      omega
    have hlast := (lt_countP_iff (b := a + W) htake (List.getElem?_eq_getElem hi)).mp (by omega)
    have hclear := h i _ (List.getElem?_eq_getElem hi)
    have hprev : inInterval W a (prev.take cap) ≤
        (prev.take cap).countP fun t => (next.take cap)[i] - W ≤ t := by
      refine List.countP_mono_left fun now _ hin => ?_
      obtain ⟨hlow, -⟩ := of_decide_eq_true hin
      simp only [decide_eq_true_eq]
      omega
    omega

/-- Where the windows clear each other, no interval has too many calls. -/
theorem Split.bound_of_clears (h : Split W nows wins) (hW : 0 ≤ W) (hsorted : nows.Pairwise (· ≤ ·))
    (hclears : wins.IsChain (Clears W cap)) (a : ℤ) : inInterval W a
    (wins.flatMap (List.take cap)) ≤ cap := by
  induction h with
  | nil => exact Nat.zero_le _
  | @cons start window rest wins hwindow hnext hrest ih =>
    have hrestSorted : rest.Pairwise (· ≤ ·) :=
      (List.pairwise_append.mp (List.pairwise_cons.mp hsorted).2).2.1
    have hlater := later_of_head hrestSorted hnext
    rw [List.flatMap_cons, inInterval_append]
    by_cases hzero : inInterval W a ((start :: window).take cap) = 0
    · rw [hzero, Nat.zero_add]
      exact ih hrestSorted hclears.tail
    -- a call of the first window is in the interval, so that the third one begins after it
    obtain ⟨x, hx, hin⟩ := List.countP_pos_iff.mp (Nat.pos_of_ne_zero hzero)
    obtain ⟨hax, -⟩ := of_decide_eq_true hin
    have hxstart : x ≤ start + W := by
      rcases List.mem_cons.mp (List.mem_of_mem_take hx) with rfl | hmem
      · omega
      · have hnear := hwindow x hmem
        omega
    cases hrest with
    | nil => exact (Nat.add_zero _).trans_le (List.countP_le_length.trans (List.length_take_le _ _))
    | @cons start' window' rest' wins' hwindow' hnext' hrest' =>
      obtain ⟨hclear, -⟩ := List.isChain_cons_cons.mp hclears
      have hsecond : (start' :: window').Pairwise (· ≤ ·) := by
        rw [← List.cons_append] at hrestSorted
        exact (List.pairwise_append.mp hrestSorted).1
      have hthird : rest'.Pairwise (· ≤ ·) :=
        (List.pairwise_append.mp (List.pairwise_cons.mp hrestSorted).2).2.1
      have hstart' := hlater start' List.mem_cons_self
      have hrestZero : inInterval W a (wins'.flatMap (List.take cap)) = 0 := by
        refine inInterval_eq_zero fun now hnow => ?_
        have hlate := later_of_head hthird hnext' now (hrest'.mem_of_allowed hnow)
        omega
      rw [List.flatMap_cons, inInterval_append, hrestZero, Nat.add_zero]
      exact hclear.bound hsecond a

/-- Where no interval has too many calls, the windows clear each other. -/
theorem Split.clears_of_bound (h : Split W nows wins) (hW : 0 ≤ W) (hsorted : nows.Pairwise (· ≤ ·))
    (hbound : ∀ a, inInterval W a (wins.flatMap (List.take cap)) ≤ cap) : wins.IsChain
    (Clears W cap) := by
  induction h with
  | nil => exact List.IsChain.nil
  | @cons start window rest wins hwindow hnext hrest ih =>
    have hrestSorted : rest.Pairwise (· ≤ ·) :=
      (List.pairwise_append.mp (List.pairwise_cons.mp hsorted).2).2.1
    have hlater := later_of_head hrestSorted hnext
    have hrestBound : ∀ a, inInterval W a (wins.flatMap (List.take cap)) ≤ cap := by
      intro a
      have htotal := hbound a
      rw [List.flatMap_cons, inInterval_append] at htotal
      exact (Nat.le_add_left _ _).trans htotal
    have hchain := ih hrestSorted hrestBound
    cases hrest with
    | nil => exact List.isChain_singleton _
    | @cons start' window' rest' wins' hwindow' hnext' hrest' =>
      refine List.isChain_cons_cons.mpr ⟨fun i now hnow => ?_, hchain⟩
      have hsecond : (start' :: window').Pairwise (· ≤ ·) := by
        rw [← List.cons_append] at hrestSorted
        exact (List.pairwise_append.mp hrestSorted).1
      have hstart' := hlater start' List.mem_cons_self
      have hfirst : ∀ t ∈ start' :: window', start' ≤ t := by
        intro t ht
        rcases List.mem_cons.mp ht with rfl | ht
        · exact le_rfl
        · exact (List.pairwise_cons.mp hsecond).1 t ht
      have hstartNow := hfirst now (List.mem_of_mem_take (List.mem_of_getElem? hnow))
      have hi : i < cap := (List.getElem?_eq_some_iff.mp hnow).1.trans_le (List.length_take_le _ _)
      by_cases hzero : ((start :: window).take cap).countP (fun t => now - W ≤ t) = 0
      · omega
      -- the interval that ends with this call
      obtain ⟨x, hx, hin⟩ := List.countP_pos_iff.mp (Nat.pos_of_ne_zero hzero)
      have hnear : ∀ t ∈ (start :: window).take cap, t ≤ start + W := by
        intro t ht
        rcases List.mem_cons.mp (List.mem_of_mem_take ht) with rfl | hmem
        · omega
        · have hnear := hwindow t hmem
          omega
      have hprev : ((start :: window).take cap).countP (fun t => now - W ≤ t) ≤
          inInterval W (now - W) ((start :: window).take cap) := by
        refine List.countP_mono_left fun t ht hlow => ?_
        have hle := hnear t ht
        simp only [decide_eq_true_eq] at hlow ⊢
        omega
      have hnext : i + 1 ≤ inInterval W (now - W) ((start' :: window').take cap) := by
        have htake := hsecond.sublist (List.take_sublist cap _)
        have hcount := (lt_countP_iff (b := now) htake hnow).mpr le_rfl
        refine hcount.trans_le (List.countP_mono_left fun t ht hhigh => ?_)
        have hxle := hnear x hx
        have htstart := hfirst t (List.mem_of_mem_take ht)
        simp only [decide_eq_true_eq] at hin hhigh ⊢
        omega
      have htotal := hbound (now - W)
      rw [List.flatMap_cons, List.flatMap_cons, inInterval_append, inInterval_append] at htotal
      omega

/-- Where a call of the first window is in the interval, the third window begins after it. -/
theorem Split.inInterval_rest_le {start : ℤ} {window rest : List ℤ} {a x : ℤ}
    (hwindow : ∀ now ∈ window, now - start ≤ W)
    (hnext : ∀ now ∈ rest.head?, W < now - start) (hrest : Split W rest wins) (hW : 0 ≤ W)
    (hsorted : rest.Pairwise (· ≤ ·)) (hx : x ∈ start :: window) (hax : a ≤ x) :
    inInterval W a (wins.flatMap (List.take cap)) ≤ cap := by
  have hxstart : x ≤ start + W := by
    rcases List.mem_cons.mp hx with rfl | hmem
    · omega
    · have hnear := hwindow x hmem
      omega
  have hlater := later_of_head hsorted hnext
  cases hrest with
  | nil => exact Nat.zero_le _
  | @cons start' window' rest' wins' hwindow' hnext' hrest' =>
    have hthird : rest'.Pairwise (· ≤ ·) :=
      (List.pairwise_append.mp (List.pairwise_cons.mp hsorted).2).2.1
    have hstart' := hlater start' List.mem_cons_self
    have hzero : inInterval W a (wins'.flatMap (List.take cap)) = 0 := by
      refine inInterval_eq_zero fun now hnow => ?_
      have hlate := later_of_head hthird hnext' now (hrest'.mem_of_allowed hnow)
      omega
    rw [List.flatMap_cons, inInterval_append, hzero, Nat.add_zero]
    exact List.countP_le_length.trans (List.length_take_le _ _)

/-- An interval meets two windows at most. -/
theorem Split.bound (h : Split W nows wins) (hW : 0 ≤ W) (hsorted : nows.Pairwise (· ≤ ·)) (a : ℤ) :
    inInterval W a (wins.flatMap (List.take cap)) ≤ cap + cap := by
  induction h with
  | nil => exact Nat.zero_le _
  | @cons start window rest wins hwindow hnext hrest ih =>
    have hrestSorted : rest.Pairwise (· ≤ ·) :=
      (List.pairwise_append.mp (List.pairwise_cons.mp hsorted).2).2.1
    rw [List.flatMap_cons, inInterval_append]
    by_cases hzero : inInterval W a ((start :: window).take cap) = 0
    · rw [hzero, Nat.zero_add]
      exact ih hrestSorted
    · obtain ⟨x, hx, hin⟩ := List.countP_pos_iff.mp (Nat.pos_of_ne_zero hzero)
      have hlow := (of_decide_eq_true hin).1
      exact Nat.add_le_add (List.countP_le_length.trans (List.length_take_le _ _))
        (Split.inInterval_rest_le hwindow hnext hrest hW hrestSorted (List.mem_of_mem_take hx) hlow)

/-- **What the counter lets through**: twice its limit in an interval of length `W`, whatever the
calls. -/
theorem allowed_bound (hW : 0 ≤ W) (hcap : 0 < cap) (hsorted : nows.Pairwise (· ≤ ·)) (a : ℤ) :
    inInterval W a (allowed W cap none nows) ≤ cap + cap := by
  rw [allowed_eq hcap]
  exact (split_windows nows).bound hW hsorted a

/-- **When the counter is a sliding window**: no interval of length `W` has more than `cap` of the
calls that are allowed, just when each window clears the next one. -/
theorem sliding_iff (hW : 0 ≤ W) (hcap : 0 < cap) (hsorted : nows.Pairwise (· ≤ ·)) :
    (∀ a, inInterval W a (allowed W cap none nows) ≤ cap) ↔
    (windows W nows).IsChain (Clears W cap) := by
  rw [allowed_eq hcap]
  exact ⟨(split_windows nows).clears_of_bound hW hsorted, (split_windows nows).bound_of_clears hW hsorted⟩

end Sliding

end Wanfw.Limit
