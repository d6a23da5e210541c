import Mathlib.Data.List.Basic
import Mathlib.Data.List.Infix

/-!
# Histories

The list of what has happened, the newest last. A property of a history that speaks of
the events before and after a given one is carried from a history to a longer one by
looking at where its pieces end (`append_singleton_eq`), and the last event of a kind
stands in one place only (`last_eq`). What holds now and did not at the start has come about at
some moment and was not undone since (`since_of_holds`).

`Bracketed` is a history in which something is put up and taken down, one thing at a time.
-/

namespace Wanfw.Store.History

variable {α : Type} {h a a' b b' : List α} {x x' e : α}

/-- A piece of a history with one more event: the new event is the one looked at, or it is the
last of what follows. -/
theorem append_singleton_eq (heq : h ++ [e] = a ++ x :: b) :
    (a = h ∧ x = e ∧ b = []) ∨ ∃ b', b = b' ++ [e] ∧ h = a ++ x :: b' := by
  rcases List.eq_nil_or_concat' b with rfl | ⟨b', y, rfl⟩
  · obtain ⟨rfl, h2⟩ := List.append_inj' heq rfl
    cases h2
    exact .inl ⟨rfl, rfl, rfl⟩
  · rw [← List.cons_append, ← List.append_assoc] at heq
    obtain ⟨h1, h2⟩ := List.append_inj' heq rfl
    cases h2
    exact .inr ⟨b', rfl, h1⟩

/-- What holds of every event of a longer history and what was before it. -/
theorem forall_concat {P : List α → α → Prop} :
    (∀ before x, before ++ [x] <+: h ++ [e] → P before x) ↔ (∀ before x, before ++ [x] <+: h → P before x) ∧ P h e := by
  constructor
  · intro hall
    exact ⟨fun before x hx => hall before x (hx.trans (List.prefix_append _ _)), hall h e (List.prefix_refl _)⟩
  · rintro ⟨hall, hlast⟩ before x hx
    rcases List.prefix_concat_iff.mp hx with hends | hx
    · obtain ⟨rfl, hsame⟩ := List.append_inj' hends rfl
      cases hsame
      exact hlast
    · exact hall before x hx

/-- The last event of a kind stands in one place. -/
theorem last_eq {P : α → Prop} (hx : P x) (hx' : P x') (hb : ∀ y ∈ b, ¬ P y) (hb' : ∀ y ∈ b', ¬ P y)
    (heq : a ++ x :: b = a' ++ x' :: b') : a = a' ∧ x = x' ∧ b = b' := by
  rcases List.append_eq_append_iff.mp heq with ⟨c, rfl, hc⟩ | ⟨c, rfl, hc⟩
  · cases c with
    | nil =>
      rw [List.nil_append] at hc
      cases hc
      simp
    | cons y c =>
      cases hc
      exact absurd hx' (hb x' (by simp))
  · cases c with
    | nil =>
      rw [List.nil_append] at hc
      cases hc
      simp
    | cons y c =>
      cases hc
      exact absurd hx (hb' x (by simp))

/-- A place in a history that goes on with `y` and then with events of another kind: it is before
`y`, it is `y`, or it is after it. -/
theorem cases_of_eq {now : List α} {y : α} (heq : h ++ y :: now = a ++ x :: b) :
    (∃ b', h = a ++ x :: b' ∧ b = b' ++ y :: now) ∨ (a = h ∧ x = y ∧ b = now) ∨ x ∈ now := by
  rcases List.append_eq_append_iff.mp heq with ⟨c, rfl, hc⟩ | ⟨c, rfl, hc⟩
  · cases c with
    | nil =>
      rw [List.nil_append] at hc
      cases hc
      exact .inr (.inl ⟨by simp, rfl, rfl⟩)
    | cons z c =>
      cases hc
      exact .inr (.inr (by simp))
  · cases c with
    | nil =>
      rw [List.nil_append] at hc
      cases hc
      exact .inr (.inl ⟨by simp, rfl, rfl⟩)
    | cons z c =>
      cases hc
      exact .inl ⟨c, rfl, rfl⟩

/-! ### Since -/

/-- At some moment `C` happened, from the history up to it, and nothing with `D` has happened since. -/
def Since (C : List α → α → Prop) (D : α → Prop) (h : List α) : Prop :=
  ∃ before x after, h = before ++ x :: after ∧ C before x ∧ ∀ y ∈ after, ¬ D y

section Since

variable {C : List α → α → Prop} {D : α → Prop}

/-- It has just happened, or it had happened and was not undone. -/
theorem since_concat : Since C D (h ++ [e]) ↔ C h e ∨ Since C D h ∧ ¬ D e := by
  constructor
  · rintro ⟨before, x, after, heq, hC, hD⟩
    rcases append_singleton_eq heq with ⟨rfl, rfl, -⟩ | ⟨after', rfl, rfl⟩
    · exact .inl hC
    · exact .inr ⟨⟨before, x, after', rfl, hC, fun y hy => hD y (by simp [hy])⟩, hD e (by simp)⟩
  · rintro (hC | ⟨⟨before, x, after, rfl, hC, hD⟩, he⟩)
    · exact ⟨h, e, [], rfl, hC, by simp⟩
    · refine ⟨before, x, after ++ [e], by simp, hC, fun y hy => ?_⟩
      rcases List.mem_append.mp hy with hy | hy
      · exact hD y hy
      · rwa [List.mem_singleton.mp hy]

/-- **What holds has come about, and was not undone since**: it does not hold at the start, and each step that leaves it
true brings it about, or finds it true and does not undo it. -/
theorem since_of_holds {ι : Type} (Holds : List α → ι → Prop) {C : ι → List α → α → Prop} {D : ι → α → Prop}
    (hnil : ∀ i, ¬ Holds [] i) (hstep : ∀ h e i, Holds (h ++ [e]) i → C i h e ∨ Holds h i ∧ ¬ D i e) (h : List α) (i : ι)
    (hi : Holds h i) : Since (C i) (D i) h := by
  induction h using List.reverseRecOn with
  | nil => exact absurd hi (hnil i)
  | append_singleton h e ih => exact since_concat.mpr ((hstep h e i hi).imp id fun h' => ⟨ih h'.1, h'.2⟩)

end Since

/-! ### Brackets -/

section Brackets

variable {ε ρ : Type} (touches : ε → Prop) (opens closes : ε → Option ρ)

/-- From what is up before to what is up after. Some events try to put something up or to take it down (`touches`); of
them `opens` are those that have put it up, `closes` those that take it down. -/
inductive Bracketed : Option ρ → List ε → Option ρ → Prop where
  | nil (s : Option ρ) : Bracketed s [] s
  | opened {e : ε} {r : ρ} {es : List ε} {t : Option ρ} (h : opens e = some r) (rest : Bracketed (some r) es t) :
    Bracketed none (e :: es) t
  | closed {e : ε} {r : ρ} {es : List ε} {t : Option ρ} (ho : opens e = none) (hc : closes e = some r)
    (rest : Bracketed none es t) : Bracketed (some r) (e :: es) t
  | failed {e : ε} {es : List ε} {t : Option ρ} (ho : opens e = none) (hc : closes e = none) (rest : Bracketed none es t) :
    Bracketed none (e :: es) t
  | quiet {e : ε} {es : List ε} {s t : Option ρ} (h : ¬ touches e) (rest : Bracketed s es t) : Bracketed s (e :: es) t

variable {touches opens closes} {s t u : Option ρ} {es es' before after : List ε} {c : ε} {r : ρ}

theorem Bracketed.append (h : Bracketed touches opens closes s es t) (h' : Bracketed touches opens closes t es' u) :
    Bracketed touches opens closes s (es ++ es') u := by
  induction h with
  | nil => exact h'
  | opened ho _ ih => exact .opened ho (ih h')
  | closed ho hc _ ih => exact .closed ho hc (ih h')
  | failed ho hc _ ih => exact .failed ho hc (ih h')
  | quiet hq _ ih => exact .quiet hq (ih h')

theorem Bracketed.of_quiet (h : ∀ e ∈ es, ¬ touches e) : Bracketed touches opens closes s es s := by
  induction es with
  | nil => exact .nil s
  | cons e es ih => exact .quiet (h e (by simp)) (ih fun x hx => h x (by simp [hx]))

/-- What is up is taken down before anything else is touched, or is still up at the end. -/
theorem Bracketed.of_up (h : Bracketed touches opens closes (some r) es t) :
    (∃ between c rest, es = between ++ c :: rest ∧ closes c = some r ∧ ∀ x ∈ between, ¬ touches x) ∨
      t = some r ∧ ∀ x ∈ es, ¬ touches x := by
  generalize hs : some r = s at h
  induction h with
  | nil =>
    cases hs
    exact .inr ⟨rfl, by simp⟩
  | opened | failed => cases hs
  | @closed e r' es t _ hc _ _ =>
    cases hs
    exact .inl ⟨[], e, es, rfl, hc, by simp⟩
  | @quiet e es s t hq _ ih =>
    rcases ih hs with ⟨between, c, rest, rfl, hc, hbetween⟩ | ⟨ht, hall⟩
    · exact .inl ⟨e :: between, c, rest, rfl, hc, by simpa [hq] using hbetween⟩
    · exact .inr ⟨ht, by simpa [hq] using hall⟩

/-- What has been put up is taken down before anything else is touched, or is still up at the end. -/
theorem Bracketed.of_opens (h : Bracketed touches opens closes s es t) (hes : es = before ++ c :: after)
    (hopens : opens c = some r) (htouches : touches c) :
    (∃ between d rest, after = between ++ d :: rest ∧ closes d = some r ∧ ∀ x ∈ between, ¬ touches x) ∨
      t = some r ∧ ∀ x ∈ after, ¬ touches x := by
  induction h generalizing before with
  | nil => simp at hes
  | opened ho rest ih =>
    cases before with
    | nil =>
      cases hes
      cases ho.symm.trans hopens
      exact rest.of_up
    | cons x before =>
      cases hes
      exact ih rfl
  | closed ho _ _ ih | failed ho _ _ ih =>
    cases before with
    | nil =>
      cases hes
      exact nomatch ho.symm.trans hopens
    | cons x before =>
      cases hes
      exact ih rfl
  | quiet hq _ ih =>
    cases before with
    | nil =>
      cases hes
      exact absurd htouches hq
    | cons x before =>
      cases hes
      exact ih rfl

/-- What is taken down was put up, and nothing was touched since. -/
theorem Bracketed.of_closes (h : Bracketed touches opens closes s es t) (hes : es = before ++ c :: after)
    (hcloses : closes c = some r) (htouches : touches c) (hopens : opens c = none) :
    (s = some r ∧ ∀ x ∈ before, ¬ touches x) ∨
      ∃ start o between, before = start ++ o :: between ∧ opens o = some r ∧ ∀ x ∈ between, ¬ touches x := by
  induction h generalizing before with
  | nil => simp at hes
  | @opened e r' es t ho _ ih =>
    cases before with
    | nil =>
      cases hes
      exact nomatch hopens.symm.trans ho
    | cons x before =>
      cases hes
      rcases ih rfl with ⟨hup, hquiet⟩ | ⟨start, o, between, rfl, hrest⟩
      · cases hup
        exact .inr ⟨[], _, before, rfl, ho, hquiet⟩
      · exact .inr ⟨_ :: start, o, between, rfl, hrest⟩
  | @closed e r' es t ho hc _ ih =>
    cases before with
    | nil =>
      cases hes
      cases hc.symm.trans hcloses
      exact .inl ⟨rfl, by simp⟩
    | cons x before =>
      cases hes
      rcases ih rfl with ⟨hup, _⟩ | ⟨start, o, between, rfl, hrest⟩
      · cases hup
      · exact .inr ⟨_ :: start, o, between, rfl, hrest⟩
  | failed ho hc _ ih =>
    cases before with
    | nil =>
      cases hes
      exact nomatch hc.symm.trans hcloses
    | cons x before =>
      cases hes
      rcases ih rfl with ⟨hup, _⟩ | ⟨start, o, between, rfl, hrest⟩
      · cases hup
      · exact .inr ⟨_ :: start, o, between, rfl, hrest⟩
  | quiet hq _ ih =>
    cases before with
    | nil =>
      cases hes
      exact absurd htouches hq
    | cons x before =>
      cases hes
      rcases ih rfl with ⟨hup, hquiet⟩ | ⟨start, o, between, rfl, hrest⟩
      · exact .inl ⟨hup, by simpa [hq] using hquiet⟩
      · exact .inr ⟨_ :: start, o, between, rfl, hrest⟩

end Brackets

end Wanfw.Store.History
