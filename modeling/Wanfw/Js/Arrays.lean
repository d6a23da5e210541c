import Wanfw.Js.Strings

/-!
# Sorting

`Array.prototype.sort` is stable, so for a comparator that is a total preorder
its result is determined: the elements in order, ties as they stood. `sortBy` is
that result for a comparator with values in `ℤ`, of which only the sign matters.

When the comparator orders by an injective key there are no ties between
different elements, and sorting is a normal form for permutations
(`sortBy_eq_iff_perm`).
-/

namespace Wanfw.Js

variable {α γ : Type}

/-- `xs.sort(cmp)`. -/
def sortBy (cmp : α → α → ℤ) (xs : List α) : List α := xs.insertionSort fun a b => cmp a b ≤ 0

/-- The order of two values of a linear order, as a comparator answers it. -/
def compareOrder [LinearOrder γ] (a b : γ) : ℤ := if a < b then -1 else if b < a then 1 else 0

/-- `xs.sort()`: strings by code units. -/
def sortStrings (xs : List JsString) : List JsString := sortBy compareOrder xs

theorem compareOrder_le [LinearOrder γ] (a b : γ) : compareOrder a b ≤ 0 ↔ a ≤ b := by
  unfold compareOrder
  split_ifs with h1 h2
  · simp [h1.le]
  · simp [h2]
  · simpa using h2

theorem sortBy_perm (cmp : α → α → ℤ) (xs : List α) : (sortBy cmp xs).Perm xs := List.perm_insertionSort _ xs

/-- Sorting by what `f` makes of the elements. -/
theorem map_sortBy (f : α → γ) (cmp : γ → γ → ℤ) (xs : List α) :
    (sortBy (fun a b => cmp (f a) (f b)) xs).map f = sortBy cmp (xs.map f) :=
  List.map_insertionSort (fun a b => cmp (f a) (f b) ≤ 0) (fun a b => cmp a b ≤ 0) f xs fun _ _ _ _ => Iff.rfl

/-- Sorting forgets the order in which the elements came, where the comparator has no ties. -/
theorem sortBy_eq_of_perm {cmp : α → α → ℤ} {xs ys : List α} (htotal : ∀ a b, cmp a b ≤ 0 ∨ cmp b a ≤ 0)
    (htrans : ∀ a b c, cmp a b ≤ 0 → cmp b c ≤ 0 → cmp a c ≤ 0)
    (hties : ∀ a ∈ xs, ∀ b ∈ xs, cmp a b ≤ 0 → cmp b a ≤ 0 → a = b) (h : xs.Perm ys) : sortBy cmp xs = sortBy cmp ys := by
  have : Std.Total fun a b => cmp a b ≤ 0 := ⟨htotal⟩
  have : IsTrans α fun a b => cmp a b ≤ 0 := ⟨htrans⟩
  refine List.Perm.eq_of_pairwise (fun a b ha hb => ?_) (List.pairwise_insertionSort _ xs)
    (List.pairwise_insertionSort _ ys) ((sortBy_perm cmp xs).trans (h.trans (sortBy_perm cmp ys).symm))
  exact hties a ((sortBy_perm cmp xs).mem_iff.mp ha) b (h.mem_iff.mpr ((sortBy_perm cmp ys).mem_iff.mp hb))

section Key

variable [LinearOrder γ] {cmp : α → α → ℤ} {key : α → γ} (hkey : Function.Injective key)
  (hcmp : ∀ a b, cmp a b ≤ 0 ↔ key a ≤ key b)

include hcmp in
/-- The result is in order. -/
theorem pairwise_sortBy (xs : List α) : (sortBy cmp xs).Pairwise fun a b => key a ≤ key b := by
  have : Std.Total fun a b => cmp a b ≤ 0 := ⟨fun a b => by simpa only [hcmp] using le_total (key a) (key b)⟩
  have : IsTrans α fun a b => cmp a b ≤ 0 := ⟨fun a b c => by simpa only [hcmp] using le_trans⟩
  exact (List.pairwise_insertionSort (fun a b => cmp a b ≤ 0) xs).imp fun h => (hcmp _ _).mp h

include hkey hcmp in
/-- **Sorting by an injective key is a normal form for permutations.** -/
theorem sortBy_eq_iff_perm (xs ys : List α) : sortBy cmp xs = sortBy cmp ys ↔ xs.Perm ys := by
  constructor
  · intro h
    exact (sortBy_perm cmp xs).symm.trans (h ▸ sortBy_perm cmp ys)
  · intro h
    refine List.Perm.eq_of_pairwise ?_ (pairwise_sortBy hcmp xs) (pairwise_sortBy hcmp ys)
      ((sortBy_perm cmp xs).trans (h.trans (sortBy_perm cmp ys).symm))
    intro a b _ _ hab hba
    exact hkey (le_antisymm hab hba)

end Key

theorem sortBy_compareOrder_eq_iff [LinearOrder γ] (xs ys : List γ) :
    sortBy compareOrder xs = sortBy compareOrder ys ↔ xs.Perm ys :=
  sortBy_eq_iff_perm Function.injective_id compareOrder_le xs ys

theorem sortStrings_eq_iff (xs ys : List JsString) : sortStrings xs = sortStrings ys ↔ xs.Perm ys :=
  sortBy_compareOrder_eq_iff xs ys

theorem pairwise_sortStrings (xs : List JsString) : (sortStrings xs).Pairwise (· ≤ ·) := by
  have h : (sortStrings xs).Pairwise fun a b => id a ≤ id b := pairwise_sortBy compareOrder_le xs
  exact h

/-- Leaving elements out before or after sorting. -/
theorem sortStrings_filter (xs : List JsString) (p : JsString → Bool) : (sortStrings xs).filter p = sortStrings (xs.filter p) := by
  refine List.Perm.eq_of_pairwise (fun a b _ _ => le_antisymm) ((pairwise_sortStrings xs).filter p)
    (pairwise_sortStrings (xs.filter p)) ?_
  exact ((sortBy_perm _ xs).filter p).trans (sortBy_perm _ _).symm

/-! ### Each element once -/

/-- `[...new Set(xs)]` has no element twice. -/
theorem nodup_eraseDups [BEq α] [LawfulBEq α] (xs : List α) : xs.eraseDups.Nodup := by
  induction hlength : xs.length using Nat.strong_induction_on generalizing xs with
  | h n ih =>
    cases xs with
    | nil => exact List.nodup_nil
    | cons x xs =>
      rw [List.eraseDups_cons, List.nodup_cons, List.mem_eraseDups]
      have hshort := List.length_filter_le (fun b => !b == x) xs
      rw [List.length_cons] at hlength
      exact ⟨by simp, ih _ (by omega) _ rfl⟩

theorem eraseDups_perm [BEq α] [LawfulBEq α] {xs ys : List α} (h : xs.Perm ys) : xs.eraseDups.Perm ys.eraseDups := by
  refine (List.perm_ext_iff_of_nodup (nodup_eraseDups xs) (nodup_eraseDups ys)).mpr fun x => ?_
  rw [List.mem_eraseDups, List.mem_eraseDups, h.mem_iff]

end Wanfw.Js
