import Mathlib.Data.List.Basic
import Mathlib.Data.List.Induction

/-!
# Hash chains

A list of items, each of which names the hash of the one before it, the first one a fixed
value. The last hash of such a chain is its tip.

`map_hash_eq_of_tip_eq`: where the hash of an item determines the hash it names, and no item
has the fixed value as its hash, two chains with the same tip have the same hashes all the
way. So a hash occurs only once in a chain (`Links.eq_of_hash_eq`).
-/

namespace Wanfw.Store

variable {α η : Type} (prev hash : α → η)

/-- Each item names the hash of the one before it. -/
def Links : η → List α → Prop
  | _, [] => True
  | h, x :: xs => prev x = h ∧ Links (hash x) xs

/-- The last hash. -/
def tip (h : η) (xs : List α) : η := (xs.getLast?.map hash).getD h

variable {prev hash} {h : η} {xs ys : List α}

theorem tip_concat (h : η) (xs : List α) (x : α) : tip hash h (xs ++ [x]) = hash x := by simp [tip]

theorem links_concat (h : η) (xs : List α) (x : α) :
    Links prev hash h (xs ++ [x]) ↔ Links prev hash h xs ∧ prev x = tip hash h xs := by
  induction xs generalizing h with
  | nil => simp [Links, tip]
  | cons y xs ih =>
    rw [List.cons_append, Links, Links, ih, and_assoc]
    rcases List.eq_nil_or_concat' xs with rfl | ⟨xs, z, rfl⟩
    · rfl
    · rw [tip_concat, ← List.cons_append, tip_concat]

theorem Links.of_append (hlinks : Links prev hash h (xs ++ ys)) : Links prev hash h xs := by
  induction ys using List.reverseRecOn with
  | nil => simpa using hlinks
  | append_singleton ys y ih =>
    rw [← List.append_assoc] at hlinks
    exact ih ((links_concat _ _ _).mp hlinks).1

/-- **Chains with the same tip have the same hashes.** -/
theorem map_hash_eq_of_tip_eq (hxs : Links prev hash h xs) (hys : Links prev hash h ys)
    (hinj : ∀ x ∈ xs, ∀ y ∈ ys, hash x = hash y → prev x = prev y)
    (hx : ∀ x ∈ xs, hash x ≠ h) (hy : ∀ y ∈ ys, hash y ≠ h)
    (htip : tip hash h xs = tip hash h ys) : xs.map hash = ys.map hash := by
  induction xs using List.reverseRecOn generalizing ys with
  | nil =>
    rcases List.eq_nil_or_concat' ys with rfl | ⟨ys, y, rfl⟩
    · rfl
    · rw [tip_concat] at htip
      exact absurd htip.symm (hy y (by simp))
  | append_singleton xs x ih =>
    rw [tip_concat] at htip
    rcases List.eq_nil_or_concat' ys with rfl | ⟨ys, y, rfl⟩
    · exact absurd htip (hx x (by simp))
    · rw [tip_concat] at htip
      obtain ⟨hxs, hprevx⟩ := (links_concat _ _ _).mp hxs
      obtain ⟨hys, hprevy⟩ := (links_concat _ _ _).mp hys
      -- the same hash, so the same hash before it
      have hbefore : tip hash h xs = tip hash h ys := by
        rw [← hprevx, ← hprevy]
        exact hinj x (by simp) y (by simp) htip
      have hmap := ih hxs hys (fun a ha b hb => hinj a (List.mem_append_left _ ha) b (List.mem_append_left _ hb))
        (fun a ha => hx a (List.mem_append_left _ ha)) (fun b hb => hy b (List.mem_append_left _ hb)) hbefore
      rw [List.map_append, List.map_append, hmap, List.map_singleton, List.map_singleton, htip]

/-- In one chain, a hash occurs once. -/
theorem Links.eq_of_hash_eq (hxs : Links prev hash h xs)
    (hinj : ∀ x ∈ xs, ∀ y ∈ xs, hash x = hash y → prev x = prev y) (hx : ∀ x ∈ xs, hash x ≠ h)
    {x y : α} (hmemx : x ∈ xs) (hmemy : y ∈ xs) (heq : hash x = hash y) : x = y := by
  obtain ⟨before, after, hsplit⟩ := List.append_of_mem hmemx
  obtain ⟨before', after', hsplit'⟩ := List.append_of_mem hmemy
  have hp : before ++ [x] <+: xs := ⟨after, by rw [hsplit, List.append_assoc]; rfl⟩
  have hp' : before' ++ [y] <+: xs := ⟨after', by rw [hsplit', List.append_assoc]; rfl⟩
  -- the chain up to the one and up to the other have the same hashes, so the same length
  have hlinks : Links prev hash h (before ++ [x]) := by
    obtain ⟨t, ht⟩ := hp
    exact (ht ▸ hxs).of_append
  have hlinks' : Links prev hash h (before' ++ [y]) := by
    obtain ⟨t, ht⟩ := hp'
    exact (ht ▸ hxs).of_append
  have hmap : (before ++ [x]).map hash = (before' ++ [y]).map hash :=
    map_hash_eq_of_tip_eq hlinks hlinks' (fun a ha b hb => hinj a (hp.subset ha) b (hp'.subset hb))
      (fun a ha => hx a (hp.subset ha)) (fun b hb => hx b (hp'.subset hb)) (by rw [tip_concat, tip_concat, heq])
  have hlen : (before ++ [x]).length = (before' ++ [y]).length := by simpa using congrArg List.length hmap
  have hsame : before ++ [x] = before' ++ [y] := by
    rw [List.prefix_iff_eq_take.mp hp, List.prefix_iff_eq_take.mp hp', hlen]
  exact List.cons.inj (List.append_inj' hsame rfl).2 |>.1

end Wanfw.Store
