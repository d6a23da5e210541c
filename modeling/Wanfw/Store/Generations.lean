import Mathlib

/-!
# Numbered generations

What has been published under a name: bundles with numbers, one of which is current. There
are three moves. A new bundle is published under a number greater than all others; one of
the bundles becomes the current one; a bundle is removed that is not the current one and not
the newest.

Whatever the order of the moves, the current number is that of a bundle (`Sound.moves`), and
a number belongs to one bundle for all time (`Moves.gone`, `Moves.same`): the newest bundle
stays until there is a newer one (`Moves.newest`), so that a new number is greater than all
that there have been.
-/

namespace Wanfw.Store

/-- The bundles under their numbers, and the number of the current one. -/
structure Archive (γ β : Type) where
  bundle : γ → Option β
  current : Option γ

namespace Archive

variable {γ β : Type} [LinearOrder γ] {P : β → Prop} {a b c : Archive γ β} {n : γ} {x y : β}

/-- There is a bundle with this number. -/
def Has (a : Archive γ β) (n : γ) : Prop := a.bundle n ≠ none

/-- A change, or none; only bundles with `P` are published. -/
inductive Move (P : β → Prop) (a : Archive γ β) : Archive γ β → Prop where
  | stay : Move P a a
  | publish (n : γ) (x : β) (hx : P x) (hnew : ∀ m, a.Has m → m < n) :
    Move P a { a with bundle := Function.update a.bundle n (some x) }
  | point (n : γ) (h : a.Has n) : Move P a { a with current := some n }
  | prune (n : γ) (hcurrent : a.current ≠ some n) (hnewer : ∃ m, n < m ∧ a.Has m) :
    Move P a { a with bundle := Function.update a.bundle n none }

/-- Any number of moves. -/
abbrev Moves (P : β → Prop) : Archive γ β → Archive γ β → Prop := Relation.ReflTransGen (Move P)

/-- The current number is that of a bundle. -/
def Sound (a : Archive γ β) : Prop := ∀ n, a.current = some n → a.Has n

theorem has_update_some {m : γ} : Has { a with bundle := Function.update a.bundle n (some x) } m ↔ m = n ∨ a.Has m := by
  unfold Has
  by_cases hmn : m = n
  · subst hmn
    simp
  · simp [hmn]

theorem has_update_none {m : γ} : Has { a with bundle := Function.update a.bundle n none } m ↔ m ≠ n ∧ a.Has m := by
  unfold Has
  by_cases hmn : m = n
  · subst hmn
    simp
  · simp [hmn]

/-! ### One move -/

theorem Sound.move (h : a.Sound) (hm : Move P a b) : b.Sound := by
  cases hm with
  | stay => exact h
  | publish n x hx hnew => exact fun m hcurrent => has_update_some.mpr (.inr (h m hcurrent))
  | point n hn =>
    rintro m ⟨⟩
    exact hn
  | prune n hcurrent hnewer =>
    intro m hm
    refine has_update_none.mpr ⟨?_, h m hm⟩
    rintro rfl
    exact hcurrent hm

/-- The newest bundle stays. -/
theorem Move.newest (hm : Move P a b) (hn : a.Has n) (hnewest : ∀ m, a.Has m → m ≤ n) : b.Has n := by
  cases hm with
  | stay => exact hn
  | publish k x hx hnew => exact has_update_some.mpr (.inr hn)
  | point k hk => exact hn
  | prune k hcurrent hnewer =>
    obtain ⟨m, hkm, hm⟩ := hnewer
    refine has_update_none.mpr ⟨?_, hn⟩
    rintro rfl
    exact absurd (hnewest m hm) (not_le.mpr hkm)

/-- Something as new as a bundle stays. -/
theorem Move.as_new (hm : Move P a b) (hn : a.Has n) : ∃ m, n ≤ m ∧ b.Has m := by
  cases hm with
  | stay => exact ⟨n, le_rfl, hn⟩
  | publish k x hx hnew => exact ⟨n, le_rfl, has_update_some.mpr (.inr hn)⟩
  | point k hk => exact ⟨n, le_rfl, hn⟩
  | prune k hcurrent hnewer =>
    by_cases hk : n = k
    · obtain ⟨m, hkm, hm⟩ := hnewer
      exact ⟨m, hk ▸ hkm.le, has_update_none.mpr ⟨hkm.ne', hm⟩⟩
    · exact ⟨n, le_rfl, has_update_none.mpr ⟨hk, hn⟩⟩

/-- What is new is newer than everything. -/
theorem Move.newer (hm : Move P a b) (hnot : ¬ a.Has n) (hn : b.Has n) : ∀ m, a.Has m → m < n := by
  cases hm with
  | stay => exact absurd hn hnot
  | publish k x hx hnew =>
    obtain rfl := (has_update_some.mp hn).resolve_right hnot
    exact hnew
  | point k hk => exact absurd hn hnot
  | prune k hcurrent hnewer => exact absurd (has_update_none.mp hn).2 hnot

/-- A bundle does not change under its number; a new one has `P`. -/
theorem Move.bundle_eq (hm : Move P a b) (hx : b.bundle n = some x) : a.bundle n = some x ∨ ¬ a.Has n ∧ P x := by
  cases hm with
  | stay => exact .inl hx
  | publish k y hy hnew =>
    by_cases hk : n = k
    · subst hk
      simp only [Function.update_self, Option.some.injEq] at hx
      exact .inr ⟨fun hn => lt_irrefl n (hnew n hn), hx ▸ hy⟩
    · simp only [Function.update_of_ne hk] at hx
      exact .inl hx
  | point k hk => exact .inl hx
  | prune k hcurrent hnewer =>
    by_cases hk : n = k
    · subst hk
      simp [Function.update_self] at hx
    · simp only [Function.update_of_ne hk] at hx
      exact .inl hx

theorem Move.mono {Q : β → Prop} (hm : Move P a b) (h : ∀ x, P x → Q x) : Move Q a b := by
  cases hm with
  | stay => exact .stay
  | publish n x hx hnew => exact .publish n x (h x hx) hnew
  | point n hn => exact .point n hn
  | prune n hcurrent hnewer => exact .prune n hcurrent hnewer

/-! ### Any number of moves -/

theorem Sound.moves (h : a.Sound) (hm : Moves P a b) : b.Sound := by
  induction hm with
  | refl => exact h
  | tail _ hstep ih => exact ih.move hstep

theorem Moves.as_new (hm : Moves P a b) (hn : a.Has n) : ∃ m, n ≤ m ∧ b.Has m := by
  induction hm with
  | refl => exact ⟨n, le_rfl, hn⟩
  | tail _ hstep ih =>
    obtain ⟨m, hnm, hm⟩ := ih
    obtain ⟨m', hmm, hm'⟩ := hstep.as_new hm
    exact ⟨m', hnm.trans hmm, hm'⟩

/-- What is new is newer than everything there was. -/
theorem Moves.newer (hm : Moves P a b) (hnot : ¬ a.Has n) (hn : b.Has n) : ∀ m, a.Has m → m < n := by
  induction hm with
  | refl => exact absurd hn hnot
  | @tail b c hbefore hstep ih =>
    by_cases hb : b.Has n
    · exact ih hb
    · intro m hm
      obtain ⟨m', hmm, hm'⟩ := Moves.as_new hbefore hm
      exact hmm.trans_lt (hstep.newer hb hn m' hm')

/-- **A number that is gone does not come back.** -/
theorem Moves.gone (hab : Moves P a b) (hbc : Moves P b c) (ha : a.Has n) (hb : ¬ b.Has n) : ¬ c.Has n := by
  intro hc
  obtain ⟨m, hnm, hm⟩ := hab.as_new ha
  exact absurd (hbc.newer hb hc m hm) (not_lt.mpr hnm)

/-- **A number belongs to one bundle.** -/
theorem Moves.same (hm : Moves P a b) (hx : a.bundle n = some x) (hy : b.bundle n = some y) : x = y := by
  induction hm generalizing y with
  | refl => exact Option.some.inj (hx.symm.trans hy)
  | @tail b c hbefore hstep ih =>
    rcases hstep.bundle_eq hy with hb | ⟨hb, -⟩
    · exact ih hb
    · have hc : c.Has n := by
        rw [Has, hy]
        exact Option.some_ne_none y
      have ha : a.Has n := by
        rw [Has, hx]
        exact Option.some_ne_none x
      exact absurd hc (Moves.gone hbefore (.single hstep) ha hb)

/-- A bundle was there, or it was published. -/
theorem Moves.published (hm : Moves P a b) (hx : b.bundle n = some x) : a.bundle n = some x ∨ P x := by
  induction hm with
  | refl => exact .inl hx
  | tail _ hstep ih =>
    rcases hstep.bundle_eq hx with hb | ⟨-, hP⟩
    · exact ih hb
    · exact .inr hP

end Archive

end Wanfw.Store
