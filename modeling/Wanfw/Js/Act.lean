import Wanfw.Js.Strings

/-!
# Effects

An asynchronous function is a function of the state it runs in: it returns or
throws, and leaves a state either way (`Act`). What it changed before it threw
stays changed, so a handler runs in the state the exception left.

`Triple P m Q E`: from a state with `P`, the action returns a value and a state
with `Q` or throws with `E`. The rules below follow the constructs: sequencing,
a thrown exception, a handler, a loop over a list with its invariant.
-/

namespace Wanfw.Js

/-- An exception, with its message. -/
inductive JsError where
  /-- The language's own error: a call of something that is not a function, a property of `null`. -/
  | typeError (message : JsString)
  /-- `new Error(message)`, or a class that extends it. -/
  | error (message : JsString)
  deriving DecidableEq

/-- `(err as Error).message`. -/
def JsError.message : JsError → JsString
  | .typeError m => m
  | .error m => m

/-! ### Throwing functions -/

section Except

variable {α : Type}

/-- A sequence that returns. -/
theorem except_bind_ok {α β : Type} {x : Except JsError α} {f : α → Except JsError β} {b : β} :
    (x >>= f) = .ok b ↔ ∃ a, x = .ok a ∧ f a = .ok b := by
  cases x with
  | error e => simp [bind, Except.bind]
  | ok a => simp [bind, Except.bind]

/-- A sequence that throws. -/
theorem except_bind_error {α β : Type} {x : Except JsError α} {f : α → Except JsError β} {e : JsError} :
    (x >>= f) = .error e ↔ x = .error e ∨ ∃ a, x = .ok a ∧ f a = .error e := by
  cases x with
  | error e' => simp [bind, Except.bind]
  | ok a => simp [bind, Except.bind]

/-- `xs.some(f)`, for a callback that may throw: the first element that holds or throws decides. -/
def someE (f : α → Except JsError Bool) : List α → Except JsError Bool
  | [] => .ok false
  | x :: xs =>
    match f x with
    | .ok true => .ok true
    | .ok false => someE f xs
    | .error e => .error e

/-- `xs.every(f)`, for a callback that may throw. -/
def everyE (f : α → Except JsError Bool) : List α → Except JsError Bool
  | [] => .ok true
  | x :: xs =>
    match f x with
    | .ok true => everyE f xs
    | .ok false => .ok false
    | .error e => .error e

/-- A loop that collects what each element contributes. -/
def collectE {β : Type} (f : α → Except JsError (List β)) : List α → Except JsError (List β)
  | [] => .ok []
  | x :: xs =>
    match f x with
    | .error e => .error e
    | .ok ys =>
      match collectE f xs with
      | .error e => .error e
      | .ok zs => .ok (ys ++ zs)

theorem collectE_ok_nil {β : Type} {f : α → Except JsError (List β)} {xs : List α} :
    collectE f xs = .ok [] ↔ ∀ x ∈ xs, f x = .ok [] := by
  induction xs with
  | nil => simp [collectE]
  | cons x xs ih =>
    simp only [List.forall_mem_cons, ← ih, collectE]
    cases hx : f x with
    | error e => simp
    | ok ys =>
      cases hxs : collectE f xs with
      | error e => simp
      | ok zs => simp

theorem someE_ok_true {f : α → Except JsError Bool} {xs : List α} (h : someE f xs = .ok true) :
    ∃ x ∈ xs, f x = .ok true := by
  induction xs with
  | nil => cases h
  | cons x xs ih =>
    unfold someE at h
    split at h
    · rename_i hx
      exact ⟨x, by simp, hx⟩
    · obtain ⟨y, hy, hf⟩ := ih h
      exact ⟨y, by simp [hy], hf⟩
    · cases h

theorem everyE_pure (p : α → Bool) (xs : List α) : everyE (fun x => .ok (p x)) xs = .ok (xs.all p) := by
  induction xs with
  | nil => rfl
  | cons x xs ih => cases hp : p x <;> simp [everyE, hp, ih]

end Except

/-! ### Actions -/

/-- An action on states `σ`. -/
def Act (σ α : Type) : Type := σ → Except JsError α × σ

namespace Act

variable {σ α β : Type}

instance : Monad (Act σ) where
  pure a := fun s => (.ok a, s)
  bind m f := fun s =>
    match m s with
    | (.ok a, s') => f a s'
    | (.error e, s') => (.error e, s')

/-- `throw e`. -/
def throw (e : JsError) : Act σ α := fun s => (.error e, s)

/-- `try { m } catch (e) { h(e) }`. -/
def tryCatch (m : Act σ α) (h : JsError → Act σ α) : Act σ α := fun s =>
  match m s with
  | (.ok a, s') => (.ok a, s')
  | (.error e, s') => h e s'

/-- The state. -/
def get : Act σ σ := fun s => (.ok s, s)

/-- Change the state. -/
def modify (f : σ → σ) : Act σ Unit := fun s => (.ok (), f s)

/-- A throwing function, as an action. -/
def ofExcept (x : Except JsError α) : Act σ α := fun s => (x, s)

/-- `for (const x of xs) body(x)`. -/
def forEach (xs : List α) (body : α → Act σ Unit) : Act σ Unit :=
  match xs with
  | [] => pure ()
  | x :: xs => do
    body x
    forEach xs body

/-- `for (const x of xs) out.push(...body(x))`. -/
def collect (xs : List α) (body : α → Act σ (List β)) : Act σ (List β) :=
  match xs with
  | [] => pure []
  | x :: xs => do
    let ys ← body x
    let zs ← collect xs body
    return ys ++ zs

/-- `for (const x of xs) …` with a `return` inside: the first body that answers ends the loop. -/
def forReturn (xs : List α) (body : α → Act σ (Option β)) : Act σ (Option β) :=
  match xs with
  | [] => pure none
  | x :: xs => do
    match ← body x with
    | some b => pure (some b)
    | none => forReturn xs body

@[simp] theorem pure_apply (a : α) (s : σ) : (pure a : Act σ α) s = (.ok a, s) := rfl

theorem bind_apply (m : Act σ α) (f : α → Act σ β) (s : σ) :
    (m >>= f) s = match m s with
      | (.ok a, s') => f a s'
      | (.error e, s') => (.error e, s') := rfl

theorem bind_ok {m : Act σ α} {f : α → Act σ β} {s : σ} {b : β} :
    ((m >>= f) s).1 = .ok b ↔ ∃ a, (m s).1 = .ok a ∧ (f a (m s).2).1 = .ok b := by
  rw [bind_apply]
  rcases m s with ⟨r, s'⟩
  cases r with
  | error e => simp
  | ok a => simp

theorem ofExcept_ok_bind (a : α) (f : α → Act σ β) : (ofExcept (.ok a) >>= f) = f a := rfl

/-! ### Pre- and postconditions -/

/-- From `P`, the action returns with `Q` or throws with `E`. -/
def Triple (P : σ → Prop) (m : Act σ α) (Q : α → σ → Prop) (E : JsError → σ → Prop) : Prop :=
  ∀ s, P s → match m s with
    | (.ok a, s') => Q a s'
    | (.error e, s') => E e s'

/-- From `P`, the action leaves `Q` if it returns. -/
abbrev Returns (P : σ → Prop) (m : Act σ α) (Q : α → σ → Prop) : Prop := Triple P m Q fun _ _ => True

variable {P P' : σ → Prop} {Q Q' : α → σ → Prop} {R : β → σ → Prop} {E E' : JsError → σ → Prop} {m : Act σ α}

theorem Triple.pure {a : α} (h : ∀ s, P s → Q a s) : Triple P (Pure.pure a : Act σ α) Q E := fun s hs => h s hs

theorem Triple.bind {f : α → Act σ β} (hm : Triple P m Q E) (hf : ∀ a, Triple (Q a) (f a) R E) :
    Triple P (m >>= f) R E := by
  intro s hs
  have := hm s hs
  rw [bind_apply]
  split at this
  · exact hf _ _ this
  · exact this

theorem Triple.conseq (hm : Triple P m Q E) (hP : ∀ s, P' s → P s) (hQ : ∀ a s, Q a s → Q' a s)
    (hE : ∀ e s, E e s → E' e s) : Triple P' m Q' E' := by
  intro s hs
  have := hm s (hP s hs)
  split at this
  · exact hQ _ _ this
  · exact hE _ _ this

/-- The state an action leaves, however it ends. -/
theorem Triple.final {R : σ → Prop} {s : σ} (hm : Triple P m Q E) (hs : P s) (hQ : ∀ a s', Q a s' → R s')
    (hE : ∀ e s', E e s' → R s') : R (m s).2 := by
  have := hm s hs
  cases hr : m s with
  | mk r s' =>
    rw [hr] at this
    cases r with
    | ok a => exact hQ a s' this
    | error e => exact hE e s' this

/-- Two facts about one action. -/
theorem Triple.and (h : Triple P m Q E) (h' : Triple P' m Q' E') :
    Triple (fun s => P s ∧ P' s) m (fun a s => Q a s ∧ Q' a s) fun e s => E e s ∧ E' e s := by
  intro s hs
  have hm := h s hs.1
  have hm' := h' s hs.2
  revert hm hm'
  rcases m s with ⟨r, s'⟩
  cases r with
  | ok a => exact fun hm hm' => ⟨hm, hm'⟩
  | error e => exact fun hm hm' => ⟨hm, hm'⟩

theorem Triple.throw {e : JsError} (h : ∀ s, P s → E e s) : Triple P (Act.throw e : Act σ α) Q E := fun s hs => h s hs

theorem Triple.tryCatch {F : JsError → σ → Prop} {h : JsError → Act σ α} (hm : Triple P m Q F) (hh : ∀ e, Triple (F e) (h e) Q E) :
    Triple P (tryCatch m h) Q E := by
  intro s hs
  have := hm s hs
  unfold Act.tryCatch
  split at this
  · exact this
  · exact hh _ _ this

theorem Triple.get {Q : σ → σ → Prop} (h : ∀ s, P s → Q s s) : Triple P (Act.get : Act σ σ) Q E := fun s hs => h s hs

/-- What an action leaves when it returns. -/
theorem Triple.returned {a : α} {s s' : σ} (hm : Triple P m Q E) (hs : P s) (h : m s = (.ok a, s')) : Q a s' := by
  have := hm s hs
  rwa [h] at this

/-- A postcondition may speak of the state before. -/
theorem Triple.ofEach (h : ∀ s, P s → Triple (fun s' => s' = s) m Q E) : Triple P m Q E := fun s hs => h s hs s rfl

/-- What the precondition says of things outside the state. -/
theorem Triple.assume {p : Prop} (h : ∀ s, P s → p) (hm : p → Triple P m Q E) : Triple P m Q E :=
  fun s hs => hm (h s hs) s hs

/-- An action that begins by reading the state. -/
theorem Triple.getBind {f : σ → Act σ α} (h : ∀ s, P s → Triple (fun s' => s' = s) (f s) Q E) :
    Triple P (Act.get >>= f) Q E := fun s hs => h s hs s rfl

theorem Triple.modify {f : σ → σ} {Q : Unit → σ → Prop} (h : ∀ s, P s → Q () (f s)) : Triple P (Act.modify f) Q E :=
  fun s hs => h s hs

theorem Triple.ofExcept {x : Except JsError α} (hok : ∀ a, x = .ok a → ∀ s, P s → Q a s)
    (herr : ∀ e, x = .error e → ∀ s, P s → E e s) : Triple P (Act.ofExcept x) Q E := by
  intro s hs
  cases x with
  | ok a => exact hok a rfl s hs
  | error e => exact herr e rfl s hs

/-- A loop keeps an invariant that its body keeps. -/
theorem Triple.forEach {I : σ → Prop} {xs : List β} {body : β → Act σ Unit}
    (h : ∀ x ∈ xs, Triple I (body x) (fun _ => I) E) : Triple I (forEach xs body) (fun _ => I) E := by
  induction xs with
  | nil => exact Triple.pure fun _ hs => hs
  | cons x xs ih => exact Triple.bind (h x (by simp)) fun _ => ih fun y hy => h y (by simp [hy])

/-- What a loop adds: what some body adds, after the bodies before it have returned. -/
theorem forEach_adds {γ : Type} (Has : σ → γ → Prop) (Adds : β → σ → γ → Prop) {body : β → Act σ Unit}
    (h : ∀ x s e, Has (body x s).2 e ↔ Has s e ∨ Adds x s e) (xs : List β) (s : σ) (e : γ) :
    Has (Act.forEach xs body s).2 e ↔ Has s e ∨ ∃ before x after s',
      xs = before ++ x :: after ∧ Act.forEach before body s = (.ok (), s') ∧ Adds x s' e := by
  induction xs generalizing s with
  | nil => simp [Act.forEach]
  | cons x xs ih =>
    have hfirst := h x s e
    -- either the first body adds it, or one behind it
    have hsplit : (∃ before y after s', x :: xs = before ++ y :: after ∧ Act.forEach before body s = (.ok (), s') ∧
        Adds y s' e) ↔ Adds x s e ∨ ∃ before y after s', xs = before ++ y :: after ∧
          Act.forEach (x :: before) body s = (.ok (), s') ∧ Adds y s' e := by
      constructor
      · rintro ⟨before, y, after, s', hxs, hbefore, hadds⟩
        cases before with
        | nil =>
          cases hxs
          cases hbefore
          exact .inl hadds
        | cons z before =>
          cases hxs
          exact .inr ⟨before, y, after, s', rfl, hbefore, hadds⟩
      · rintro (hadds | ⟨before, y, after, s', rfl, hbefore, hadds⟩)
        · exact ⟨[], x, xs, s, rfl, rfl, hadds⟩
        · exact ⟨x :: before, y, after, s', rfl, hbefore, hadds⟩
    rw [hsplit, ← or_assoc, ← hfirst]
    rcases hbody : body x s with ⟨r, s₁⟩
    cases r with
    | ok _ =>
      have hcons : ∀ ys, Act.forEach (x :: ys) body s = Act.forEach ys body s₁ := by
        intro ys
        rw [Act.forEach, bind_apply, hbody]
      simp only [hcons]
      exact ih s₁
    | error err =>
      have hcons : ∀ ys, Act.forEach (x :: ys) body s = (.error err, s₁) := by
        intro ys
        rw [Act.forEach, bind_apply, hbody]
      simp [hcons]

/-- A loop whose invariant speaks of the elements that are left. -/
theorem Triple.forEachLeft {I : List β → σ → Prop} {body : β → Act σ Unit}
    (h : ∀ x xs, Triple (I (x :: xs)) (body x) (fun _ => I xs) E) (xs : List β) :
    Triple (I xs) (Act.forEach xs body) (fun _ => I []) E := by
  induction xs with
  | nil => exact Triple.pure fun _ hs => hs
  | cons x xs ih => exact Triple.bind (h x xs) fun _ => ih

/-- A loop that collects: what each element contributes, one after the other. -/
theorem Triple.collect {β' : Type} {I : σ → Prop} {xs : List β} {body : β → Act σ (List β')} {g : β → List β'}
    (h : ∀ x ∈ xs, Triple I (body x) (fun ys s => ys = g x ∧ I s) E) :
    Triple I (Act.collect xs body) (fun ys s => ys = xs.flatMap g ∧ I s) E := by
  induction xs with
  | nil => exact Triple.pure fun _ hs => ⟨rfl, hs⟩
  | cons x xs ih =>
    refine Triple.bind (h x (by simp)) fun ys => ?_
    refine Triple.bind (Q := fun zs s => ys = g x ∧ zs = xs.flatMap g ∧ I s) ?_ fun zs => ?_
    · intro s hs
      have := ih (fun y hy => h y (by simp [hy])) s hs.2
      split at this
      · exact ⟨hs.1, this⟩
      · exact this
    · exact Triple.pure fun s hs => ⟨by rw [hs.1, hs.2.1, List.flatMap_cons], hs.2.2⟩

/-- A loop that collects: whatever holds of what each element contributes holds of everything. -/
theorem Triple.collectAll {β' : Type} {I : σ → Prop} {Q : β' → Prop} {xs : List β} {body : β → Act σ (List β')}
    (h : ∀ x ∈ xs, Triple I (body x) (fun ys s => (∀ y ∈ ys, Q y) ∧ I s) E) :
    Triple I (Act.collect xs body) (fun ys s => (∀ y ∈ ys, Q y) ∧ I s) E := by
  induction xs with
  | nil => exact Triple.pure fun _ hs => ⟨by simp, hs⟩
  | cons x xs ih =>
    refine Triple.bind (h x (by simp)) fun ys => ?_
    refine Triple.bind (Q := fun zs s => (∀ y ∈ ys, Q y) ∧ (∀ z ∈ zs, Q z) ∧ I s) ?_ fun zs => ?_
    · intro s hs
      have := ih (fun y hy => h y (by simp [hy])) s hs.2
      split at this
      · exact ⟨hs.1, this⟩
      · exact this
    · exact Triple.pure fun s hs => ⟨fun y hy => (List.mem_append.mp hy).elim (hs.1 y) (hs.2.1 y), hs.2.2⟩

/-- A loop with a `return`: it ends with what a body answered, or with the invariant. -/
theorem Triple.forReturn {I : σ → Prop} {xs : List α} {body : α → Act σ (Option β)}
    (h : ∀ x ∈ xs, Triple I (body x) (fun r s => match r with | some b => R b s | none => I s) E) :
    Triple I (forReturn xs body) (fun r s => match r with | some b => R b s | none => I s) E := by
  induction xs with
  | nil => exact Triple.pure fun _ hs => hs
  | cons x xs ih =>
    refine Triple.bind (h x (by simp)) fun r => ?_
    cases r with
    | some b => exact Triple.pure fun _ hs => hs
    | none => exact ih fun y hy => h y (by simp [hy])

/-- `forReturn` with what is still to be done. -/
theorem Triple.forReturnLeft {I : List α → σ → Prop} {body : α → Act σ (Option β)}
    (h : ∀ x xs, Triple (I (x :: xs)) (body x) (fun r s => (∀ b, r = some b → R b s) ∧ (r = none → I xs s)) E)
    (xs : List α) :
    Triple (I xs) (Act.forReturn xs body) (fun r s => (∀ b, r = some b → R b s) ∧ (r = none → I [] s)) E := by
  induction xs with
  | nil => exact Triple.pure fun _ hs => ⟨by simp, fun _ => hs⟩
  | cons x xs ih =>
    refine Triple.bind (h x xs) fun r => ?_
    cases r with
    | some b => exact Triple.pure fun _ hs => ⟨hs.1, by simp⟩
    | none => exact ih.conseq (fun _ hs => hs.2 rfl) (fun _ _ hs => hs) fun _ _ hs => hs

/-! ### Invariants -/

/-- The action keeps `I`, whether it returns or throws. -/
def Keeps (I : σ → Prop) (m : Act σ α) : Prop := Triple I m (fun _ => I) fun _ => I

section Keeps

variable {I : σ → Prop}

theorem Keeps.pure (a : α) : Keeps I (Pure.pure a : Act σ α) := Triple.pure fun _ h => h

theorem Keeps.bind {f : α → Act σ β} (hm : Keeps I m) (hf : ∀ a, Keeps I (f a)) : Keeps I (m >>= f) := Triple.bind hm hf

theorem Keeps.throw (e : JsError) : Keeps I (Act.throw e : Act σ α) := Triple.throw fun _ h => h

theorem Keeps.get : Keeps I (Act.get : Act σ σ) := Triple.get fun _ h => h

theorem Keeps.modify {f : σ → σ} (h : ∀ s, I s → I (f s)) : Keeps I (Act.modify f) := Triple.modify h

theorem Keeps.tryCatch {handler : JsError → Act σ α} (hm : Keeps I m) (hh : ∀ e, Keeps I (handler e)) :
    Keeps I (Act.tryCatch m handler) := Triple.tryCatch hm hh

theorem Keeps.forEach {xs : List β} {body : β → Act σ Unit} (h : ∀ x ∈ xs, Keeps I (body x)) :
    Keeps I (Act.forEach xs body) := Triple.forEach h

theorem Keeps.forReturn {xs : List α} {body : α → Act σ (Option β)} (h : ∀ x ∈ xs, Keeps I (body x)) :
    Keeps I (Act.forReturn xs body) := by
  refine (Triple.forReturn (R := fun _ => I) fun x hx => (h x hx).conseq (fun _ h => h) (fun r _ h => ?_)
    fun _ _ h => h).conseq (fun _ h => h) (fun r _ h => ?_) fun _ _ h => h
  · cases r <;> exact h
  · cases r <;> exact h

/-- What holds before holds after. -/
theorem Keeps.final {s : σ} (h : Keeps I m) (hs : I s) : I (m s).2 := Triple.final h hs (fun _ _ h => h) fun _ _ h => h

end Keeps

/-! ### Two runs -/

/-- From related states the two actions answer or throw the same, and leave related states. -/
def Agree (R : σ → σ → Prop) (m m' : Act σ α) : Prop := ∀ s s', R s s' → (m s).1 = (m' s').1 ∧ R (m s).2 (m' s').2

section Agree

variable {R : σ → σ → Prop} {m m' : Act σ α}

theorem Agree.pure (a : α) : Agree R (Pure.pure a : Act σ α) (Pure.pure a) := fun _ _ h => ⟨rfl, h⟩

theorem Agree.throw (e : JsError) : Agree R (Act.throw e : Act σ α) (Act.throw e) := fun _ _ h => ⟨rfl, h⟩

theorem Agree.modify {f g : σ → σ} (h : ∀ s s', R s s' → R (f s) (g s')) : Agree R (Act.modify f) (Act.modify g) :=
  fun s s' hs => ⟨rfl, h s s' hs⟩

theorem Agree.bind {f f' : α → Act σ β} (hm : Agree R m m') (hf : ∀ a, Agree R (f a) (f' a)) :
    Agree R (m >>= f) (m' >>= f') := by
  intro s s' hs
  obtain ⟨hanswer, hstate⟩ := hm s s' hs
  simp only [bind_apply]
  rcases hrun : m s with ⟨r, t⟩
  rcases hrun' : m' s' with ⟨r', t'⟩
  rw [hrun, hrun'] at hanswer hstate
  cases hanswer
  cases r with
  | ok a => exact hf a t t' hstate
  | error e => exact ⟨rfl, hstate⟩

theorem Agree.tryCatch {h h' : JsError → Act σ α} (hm : Agree R m m') (hh : ∀ e, Agree R (h e) (h' e)) :
    Agree R (Act.tryCatch m h) (Act.tryCatch m' h') := by
  intro s s' hs
  obtain ⟨hanswer, hstate⟩ := hm s s' hs
  unfold Act.tryCatch
  rcases hrun : m s with ⟨r, t⟩
  rcases hrun' : m' s' with ⟨r', t'⟩
  rw [hrun, hrun'] at hanswer hstate
  cases hanswer
  cases r with
  | ok a => exact ⟨rfl, hstate⟩
  | error e => exact hh e t t' hstate

theorem Agree.forEach {xs : List β} {body body' : β → Act σ Unit} (h : ∀ x ∈ xs, Agree R (body x) (body' x)) :
    Agree R (Act.forEach xs body) (Act.forEach xs body') := by
  induction xs with
  | nil => exact Agree.pure ()
  | cons x xs ih => exact (h x (by simp)).bind fun _ => ih fun y hy => h y (by simp [hy])

/-- Elements that one of two loops leaves out, and for which the other does nothing that shows. -/
theorem Agree.forReturnFilter {xs : List α} {p : α → Bool} {body body' : α → Act σ (Option β)}
    (hkept : ∀ x ∈ xs, p x = true → Agree R (body x) (body' x))
    (hleft : ∀ x ∈ xs, p x = false → ∀ s s', R s s' → (body' x s').1 = .ok none ∧ R s (body' x s').2) :
    Agree R (Act.forReturn (xs.filter p) body) (Act.forReturn xs body') := by
  induction xs with
  | nil => exact Agree.pure none
  | cons x xs ih =>
    have ih := ih (fun y hy => hkept y (by simp [hy])) fun y hy => hleft y (by simp [hy])
    cases hp : p x with
    | true =>
      rw [List.filter_cons_of_pos hp]
      refine (hkept x (by simp) hp).bind fun r => ?_
      cases r with
      | some b => exact Agree.pure _
      | none => exact ih
    | false =>
      rw [List.filter_cons_of_neg (by simp [hp])]
      intro s s' hs
      obtain ⟨hanswer, hstate⟩ := hleft x (by simp) hp s s' hs
      rw [Act.forReturn, bind_apply]
      rcases hrun : body' x s' with ⟨r, t⟩
      rw [hrun] at hanswer hstate
      cases hanswer
      exact ih s t hstate

end Agree

end Act

end Wanfw.Js
