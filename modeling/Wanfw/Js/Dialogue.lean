import Wanfw.Js.Act

/-!
# Dialogues

An asynchronous function of which only the calls matter that it makes of its
dependencies. What a call comes to is not known beforehand: it is asked of `answers`,
which may look at all that has been called before, and which may leave a call open. A
dialogue says how far it comes with these answers and which calls it makes on its way.

A loop is followed for a number of rounds. With no rounds left the dialogue is still
running, as it is when it waits for a call that is not answered.

`Yields m S`: whatever the answers, how far `m` comes and the calls it makes are related
by `S`. The rules below follow the constructs. They speak of the calls that `m` itself
makes, so a rule for a sequence puts the two pieces together.
-/

namespace Wanfw.Js

/-- A call that was made. No outcome: it is still open, or nobody waits for it. -/
structure Called (κ : Type) (ο : κ → Type) where
  call : κ
  outcome : Option (Except JsError (ο call))

/-- How far a function has come. -/
inductive Progress (α : Type) where
  | returned (a : α)
  | threw (e : JsError)
  | running
  deriving DecidableEq

/-- What a body that came to `r` comes to with its cleanup: what the cleanup throws takes the place of `r`. -/
def Progress.after {α : Type} (r : Progress α) : Progress Unit → Progress α
  | .returned _ => r
  | .threw e => .threw e
  | .running => .running

/-- What a call comes to, after others. -/
abbrev Answers (κ : Type) (ο : κ → Type) : Type := List (Called κ ο) → (c : κ) → Option (Except JsError (ο c))

/-- With these answers, and after these calls: how far it comes, and the calls it makes. -/
def Dialogue (κ : Type) (ο : κ → Type) (α : Type) : Type :=
  Answers κ ο → List (Called κ ο) → Progress α × List (Called κ ο)

namespace Dialogue

variable {κ : Type} {ο : κ → Type} {α β : Type}

instance : Monad (Dialogue κ ο) where
  pure a := fun _ _ => (.returned a, [])
  bind m f := fun answers before =>
    match m answers before with
    | (.returned a, calls) => ((f a answers (before ++ calls)).1, calls ++ (f a answers (before ++ calls)).2)
    | (.threw e, calls) => (.threw e, calls)
    | (.running, calls) => (.running, calls)

/-- `throw e`. -/
def throw (e : JsError) : Dialogue κ ο α := fun _ _ => (.threw e, [])

/-- A function that calls nothing. -/
def liftE : Except JsError α → Dialogue κ ο α
  | .ok a => pure a
  | .error e => throw e

/-- `await c`. -/
def await (c : κ) : Dialogue κ ο (ο c) := fun answers before =>
  match answers before c with
  | some (.ok a) => (.returned a, [⟨c, some (.ok a)⟩])
  | some (.error e) => (.threw e, [⟨c, some (.error e)⟩])
  | none => (.running, [⟨c, none⟩])

/-- `void c`: the call is made, and nobody waits for it. -/
def send (c : κ) : Dialogue κ ο Unit := fun _ _ => (.returned (), [⟨c, none⟩])

/-- `try { m } finally { cleanup }`. -/
def tryFinally (m : Dialogue κ ο α) (cleanup : Dialogue κ ο Unit) : Dialogue κ ο α := fun answers before =>
  match m answers before with
  | (.returned a, calls) =>
    (Progress.after (.returned a) (cleanup answers (before ++ calls)).1, calls ++ (cleanup answers (before ++ calls)).2)
  | (.threw e, calls) =>
    (Progress.after (.threw e) (cleanup answers (before ++ calls)).1, calls ++ (cleanup answers (before ++ calls)).2)
  | (.running, calls) => (.running, calls)

/-- A loop, followed for so many rounds: a round goes on with a new state, or leaves with a result. -/
def loop (round : β → Dialogue κ ο (β ⊕ α)) : ℕ → β → Dialogue κ ο α
  | 0, _ => fun _ _ => (.running, [])
  | rounds + 1, b => do
    match ← round b with
    | .inl b' => loop round rounds b'
    | .inr a => pure a

/-! ### What a dialogue does, whatever the answers -/

/-- How far `m` comes, and the calls it makes on its way, are related by `S`. -/
def Yields (m : Dialogue κ ο α) (S : Progress α → List (Called κ ο) → Prop) : Prop :=
  ∀ answers before, S (m answers before).1 (m answers before).2

variable {m : Dialogue κ ο α} {f : α → Dialogue κ ο β} {S S' : Progress α → List (Called κ ο) → Prop}
  {T : Progress β → List (Called κ ο) → Prop}

theorem Yields.conseq (hm : Yields m S) (h : ∀ r calls, S r calls → S' r calls) : Yields m S' :=
  fun answers before => h _ _ (hm answers before)

theorem Yields.and (hm : Yields m S) (hm' : Yields m S') : Yields m fun r calls => S r calls ∧ S' r calls :=
  fun answers before => ⟨hm answers before, hm' answers before⟩

theorem Yields.pure {a : α} (h : S (.returned a) []) : Yields (Pure.pure a : Dialogue κ ο α) S := fun _ _ => h

theorem Yields.throw {e : JsError} (h : S (.threw e) []) : Yields (throw e : Dialogue κ ο α) S := fun _ _ => h

theorem Yields.liftE {x : Except JsError α} (hok : ∀ a, x = .ok a → S (.returned a) [])
    (herror : ∀ e, x = .error e → S (.threw e) []) : Yields (liftE x : Dialogue κ ο α) S := by
  cases x with
  | ok a => exact Yields.pure (hok a rfl)
  | error e => exact Yields.throw (herror e rfl)

theorem Yields.await {c : κ} {S : Progress (ο c) → List (Called κ ο) → Prop}
    (hok : ∀ a, S (.returned a) [⟨c, some (.ok a)⟩]) (herror : ∀ e, S (.threw e) [⟨c, some (.error e)⟩])
    (hopen : S .running [⟨c, none⟩]) : Yields (await c) S := by
  intro answers before
  unfold Dialogue.await
  cases answers before c with
  | none => exact hopen
  | some r =>
    cases r with
    | ok a => exact hok a
    | error e => exact herror e

theorem Yields.send {c : κ} {S : Progress Unit → List (Called κ ο) → Prop} (h : S (.returned ()) [⟨c, none⟩]) :
    Yields (send c) S := fun _ _ => h

/-- One after the other. -/
theorem Yields.bind (hm : Yields m S)
    (hreturned : ∀ a calls, S (.returned a) calls → Yields (f a) fun r calls' => T r (calls ++ calls'))
    (hthrew : ∀ e calls, S (.threw e) calls → T (.threw e) calls) (hrunning : ∀ calls, S .running calls → T .running calls) :
    Yields (m >>= f) T := by
  intro answers before
  have hfirst := hm answers before
  change T (match m answers before with
    | (.returned a, calls) => ((f a answers (before ++ calls)).1, calls ++ (f a answers (before ++ calls)).2)
    | (.threw e, calls) => (.threw e, calls)
    | (.running, calls) => (.running, calls)).1 _
  rcases h : m answers before with ⟨r, calls⟩
  rw [h] at hfirst
  cases r with
  | returned a =>
    have hsecond := hreturned a calls hfirst answers (before ++ calls)
    simpa only [Bind.bind, h] using hsecond
  | threw e => simpa only [Bind.bind, h] using hthrew e calls hfirst
  | running => simpa only [Bind.bind, h] using hrunning calls hfirst

theorem Yields.liftE_bind {x : Except JsError α} (hok : ∀ a, x = .ok a → Yields (f a) T)
    (herror : ∀ e, x = .error e → T (.threw e) []) : Yields (Dialogue.liftE x >>= f) T := by
  cases x with
  | ok a => exact fun answers before => hok a rfl answers (before ++ [])
  | error e => exact fun _ _ => herror e rfl

theorem Yields.await_bind {c : κ} {f : ο c → Dialogue κ ο β}
    (hok : ∀ a, Yields (f a) fun r calls => T r (⟨c, some (.ok a)⟩ :: calls))
    (herror : ∀ e, T (.threw e) [⟨c, some (.error e)⟩]) (hopen : T .running [⟨c, none⟩]) :
    Yields (Dialogue.await c >>= f) T := by
  refine Yields.bind (S := fun r calls => match r with
    | .returned a => calls = [⟨c, some (.ok a)⟩]
    | .threw e => calls = [⟨c, some (.error e)⟩]
    | .running => calls = [⟨c, none⟩])
    (Yields.await (fun _ => rfl) (fun _ => rfl) rfl) (fun a calls h => ?_) (fun e calls h => ?_) fun calls h => ?_
  · exact h ▸ hok a
  · exact h ▸ herror e
  · exact h ▸ hopen

/-- The cleanup comes after whatever the body came to, unless the body is still running. -/
theorem Yields.tryFinally {cleanup : Dialogue κ ο Unit} (hm : Yields m S)
    (hreturned : ∀ a calls, S (.returned a) calls →
      Yields cleanup fun r calls' => S' (Progress.after (.returned a) r) (calls ++ calls'))
    (hthrew : ∀ e calls, S (.threw e) calls → Yields cleanup fun r calls' => S' (Progress.after (.threw e) r) (calls ++ calls'))
    (hrunning : ∀ calls, S .running calls → S' .running calls) : Yields (tryFinally m cleanup) S' := by
  intro answers before
  have hbody := hm answers before
  unfold Dialogue.tryFinally
  rcases h : m answers before with ⟨r, calls⟩
  rw [h] at hbody
  cases r with
  | returned a => exact hreturned a calls hbody answers (before ++ calls)
  | threw e => exact hthrew e calls hbody answers (before ++ calls)
  | running => exact hrunning calls hbody

/-! ### What it returns -/

/-- If `m` returns, its result and its calls are related by `Q`. -/
def Returns (m : Dialogue κ ο α) (Q : α → List (Called κ ο) → Prop) : Prop :=
  Yields m fun r calls => ∀ a, r = .returned a → Q a calls

section Returns

variable {Q Q' : α → List (Called κ ο) → Prop} {R : β → List (Called κ ο) → Prop}

theorem Returns.conseq (hm : Returns m Q) (h : ∀ a calls, Q a calls → Q' a calls) : Returns m Q' :=
  Yields.conseq hm fun _ calls hq a ha => h a calls (hq a ha)

theorem Returns.pure {a : α} (h : Q a []) : Returns (Pure.pure a : Dialogue κ ο α) Q := by
  refine Yields.pure fun b hb => ?_
  cases hb
  exact h

theorem Returns.throw (e : JsError) : Returns (Dialogue.throw e : Dialogue κ ο α) Q := Yields.throw fun _ h => nomatch h

theorem Returns.liftE {x : Except JsError α} (h : ∀ a, x = .ok a → Q a []) : Returns (Dialogue.liftE x : Dialogue κ ο α) Q := by
  refine Yields.liftE (fun a ha b hb => ?_) fun _ _ _ h => nomatch h
  cases hb
  exact h a ha

theorem Returns.await {c : κ} {Q : ο c → List (Called κ ο) → Prop} (h : ∀ a, Q a [⟨c, some (.ok a)⟩]) :
    Returns (Dialogue.await c) Q := by
  refine Yields.await (fun a b hb => ?_) (fun _ _ h => nomatch h) fun _ h => nomatch h
  cases hb
  exact h a

theorem Returns.send {c : κ} {Q : Unit → List (Called κ ο) → Prop} (h : Q () [⟨c, none⟩]) :
    Returns (Dialogue.send c) Q := Yields.send fun _ _ => h

theorem Returns.bind (hm : Returns m Q) (hf : ∀ a calls, Q a calls → Returns (f a) fun b calls' => R b (calls ++ calls')) :
    Returns (m >>= f) R :=
  Yields.bind hm (fun a calls h => hf a calls (h a rfl)) (fun _ _ _ _ h => nomatch h) fun _ _ _ h => nomatch h

/-- If the whole returns, so did the body, and what the cleanup did comes after it. -/
theorem Returns.tryFinally {cleanup : Dialogue κ ο Unit} (hm : Returns m Q)
    (hcleanup : ∀ a calls, Q a calls → Returns cleanup fun _ calls' => Q' a (calls ++ calls')) :
    Returns (tryFinally m cleanup) Q' := by
  refine Yields.tryFinally hm (fun a calls h => ?_) (fun e calls _ => ?_) fun _ _ _ h => nomatch h
  · refine Yields.conseq (hcleanup a calls (h a rfl)) fun r calls' hr b hb => ?_
    cases r with
    | returned _ =>
      cases hb
      exact hr () rfl
    | threw _ => cases hb
    | running => cases hb
  · refine Yields.conseq (S := fun _ _ => True) (fun _ _ => trivial) fun r _ _ b hb => ?_
    cases r <;> cases hb

/-- A loop returns what its last round returns. -/
theorem Returns.loop {round : β → Dialogue κ ο (β ⊕ α)}
    (hround : ∀ b, Returns (round b) fun r calls => ∀ a, r = .inr a → ∀ before, Q a (before ++ calls))
    (rounds : ℕ) (b : β) (before : List (Called κ ο)) :
    Returns (Dialogue.loop round rounds b) fun a calls => Q a (before ++ calls) := by
  induction rounds generalizing b before with
  | zero => exact fun _ _ _ h => nomatch h
  | succ rounds ih =>
    refine Returns.bind (hround b) fun r calls hr => ?_
    cases r with
    | inl b' => simpa only [List.append_assoc] using ih b' (before ++ calls)
    | inr a => exact Returns.pure (by simpa using hr a rfl before)

/-- `for (const x of xs)`: the calls for each element, one after the other. -/
theorem Returns.foldlM {γ : Type} {body : β → γ → Dialogue κ ο β} {Q : γ → List (Called κ ο) → Prop}
    (h : ∀ b x, Returns (body b x) fun _ calls => Q x calls) (xs : List γ) (b : β) :
    Returns (xs.foldlM body b) fun _ calls => ∃ pieces, calls = pieces.flatten ∧ List.Forall₂ Q xs pieces := by
  induction xs generalizing b with
  | nil => exact Returns.pure ⟨[], rfl, .nil⟩
  | cons x xs ih =>
    rw [List.foldlM_cons]
    refine Returns.bind (h b x) fun b' piece hpiece => (ih b').conseq fun _ calls hrest => ?_
    obtain ⟨pieces, rfl, hpieces⟩ := hrest
    exact ⟨piece :: pieces, rfl, .cons hpiece hpieces⟩

end Returns

/-! ### Which calls it makes -/

/-- Every call that `m` makes satisfies `P`. -/
def Emits (P : κ → Prop) (m : Dialogue κ ο α) : Prop := Yields m fun _ calls => ∀ x ∈ calls, P x.call

section Emits

variable {P : κ → Prop}

theorem Emits.mono {P' : κ → Prop} (hm : Emits P m) (h : ∀ c, P c → P' c) : Emits P' m :=
  Yields.conseq hm fun _ _ hcalls x hx => h x.call (hcalls x hx)

theorem Emits.pure (a : α) : Emits P (Pure.pure a : Dialogue κ ο α) := Yields.pure (by simp)

theorem Emits.throw (e : JsError) : Emits P (Dialogue.throw e : Dialogue κ ο α) := Yields.throw (by simp)

theorem Emits.liftE (x : Except JsError α) : Emits P (Dialogue.liftE x : Dialogue κ ο α) :=
  Yields.liftE (by simp) (by simp)

theorem Emits.await {c : κ} (h : P c) : Emits P (Dialogue.await c : Dialogue κ ο (ο c)) :=
  Yields.await (by simp [h]) (by simp [h]) (by simp [h])

theorem Emits.send {c : κ} (h : P c) : Emits P (Dialogue.send c : Dialogue κ ο Unit) := Yields.send (by simp [h])

theorem Emits.bind (hm : Emits P m) (hf : ∀ a, Emits P (f a)) : Emits P (m >>= f) := by
  refine Yields.bind hm (fun a calls h => ?_) (fun _ _ h => h) fun _ h => h
  refine (hf a).conseq fun r calls' h' x hx => ?_
  rcases List.mem_append.mp hx with hx | hx
  · exact h x hx
  · exact h' x hx

theorem Emits.loop {round : β → Dialogue κ ο (β ⊕ α)} (h : ∀ b, Emits P (round b)) (rounds : ℕ) (b : β) :
    Emits P (loop round rounds b) := by
  induction rounds generalizing b with
  | zero => exact fun _ _ x hx => by simp [Dialogue.loop] at hx
  | succ rounds ih =>
    refine Emits.bind (h b) fun r => ?_
    cases r with
    | inl b' => exact ih b'
    | inr a => exact Emits.pure a

theorem Emits.tryFinally {cleanup : Dialogue κ ο Unit} (hm : Emits P m) (hcleanup : Emits P cleanup) :
    Emits P (tryFinally m cleanup) := by
  have hboth : ∀ calls : List (Called κ ο), (∀ x ∈ calls, P x.call) →
      Yields cleanup fun _ calls' => ∀ x ∈ calls ++ calls', P x.call := by
    refine fun calls h => hcleanup.conseq fun r calls' h' x hx => ?_
    rcases List.mem_append.mp hx with hx | hx
    · exact h x hx
    · exact h' x hx
  exact Yields.tryFinally hm (fun _ calls h => hboth calls h) (fun _ calls h => hboth calls h) fun _ h => h

theorem Emits.foldlM {γ : Type} {body : β → γ → Dialogue κ ο β} (h : ∀ b x, Emits P (body b x)) (xs : List γ) (b : β) :
    Emits P (xs.foldlM body b) := by
  induction xs generalizing b with
  | nil => exact Emits.pure b
  | cons x xs ih =>
    rw [List.foldlM_cons]
    exact Emits.bind (h b x) ih

end Emits

/-! ### Where a call stands -/

/-- Each call of `m` that satisfies `P`, with the calls of `m` before it, satisfies `R`. -/
def Places (P : κ → Prop) (m : Dialogue κ ο α) (R : List (Called κ ο) → Called κ ο → List (Called κ ο) → Prop) : Prop :=
  Yields m fun _ calls => ∀ before e after, calls = before ++ e :: after → P e.call → R before e after

section Places

variable {P : κ → Prop} {Q : α → List (Called κ ο) → Prop} {R : List (Called κ ο) → Called κ ο → List (Called κ ο) → Prop}

theorem Places.of_emits (hm : Emits (fun c => ¬ P c) m) : Places P m R := by
  refine Yields.conseq hm fun _ calls h before e after hcalls hP => ?_
  exact absurd hP (h e (by simp [hcalls]))

theorem Places.mono {R' : List (Called κ ο) → Called κ ο → List (Called κ ο) → Prop} (hm : Places P m R)
    (h : ∀ before e after, R before e after → R' before e after) : Places P m R' :=
  Yields.conseq hm fun _ _ hplaces before e after hcalls hP => h before e after (hplaces before e after hcalls hP)

theorem Places.liftE_bind {x : Except JsError α} (h : ∀ a, x = .ok a → Places P (f a) R) : Places P (liftE x >>= f) R :=
  Yields.liftE_bind h fun _ _ before e after hcalls => by simp at hcalls

theorem Places.await {c : κ} (h : ∀ r, R [] ⟨c, r⟩ []) : Places P (Dialogue.await c : Dialogue κ ο (ο c)) R := by
  have hone : ∀ r, ∀ before e after, [(⟨c, r⟩ : Called κ ο)] = before ++ e :: after → P e.call → R before e after := by
    intro r before e after hcalls _
    obtain ⟨rfl, hcalls⟩ | ⟨_, h1, h2⟩ := List.cons_eq_append_iff.mp hcalls
    · cases hcalls
      exact h r
    · exact absurd h2 (by simp)
  exact Yields.await (fun a => hone _) (fun e => hone _) (hone _)

/-- The calls of interest come after a first part that makes none of them. -/
theorem Places.bind (hm : Emits (fun c => ¬ P c) m) (hreturns : Returns m Q)
    (hf : ∀ a calls, Q a calls → Places P (f a) fun before e after => R (calls ++ before) e after) : Places P (m >>= f) R := by
  refine Yields.bind (Yields.and hm hreturns) (fun a calls h => ?_) (fun e calls h before x after hcalls hP => ?_)
    fun calls h before x after hcalls hP => ?_
  · refine (hf a calls (h.2 a rfl)).conseq fun r calls' hplaces before x after hcalls hP => ?_
    rcases List.append_eq_append_iff.mp hcalls with ⟨before', rfl, hafter⟩ | ⟨rest, rfl, hrest⟩
    · exact hplaces before' x after hafter hP
    · cases rest with
      | nil => simpa using hplaces [] x after hrest.symm hP
      | cons y rest =>
        cases hrest
        exact absurd hP (h.1 x (by simp))
  · exact absurd hP (h.1 x (by simp [hcalls]))
  · exact absurd hP (h.1 x (by simp [hcalls]))

end Places

end Dialogue

end Wanfw.Js
