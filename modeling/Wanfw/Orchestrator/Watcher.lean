import Wanfw.Orchestrator.Engine

/-!
# Changes of the desired state

`desired-state/watcher.ts`, `watchDesiredState`, as `main.ts` joins it to the reconcile engine. A
change of a file calls `trigger` when chokidar has told of it and no other change follows for
`debounceMs`. Where chokidar tells nothing, the timer does that goes off every `pollIntervalMs`.

`System.Step` interleaves the clock, the changes, what chokidar tells, the timers and the engine.
A timer goes off at its time or later. `change_reconciled`: of every change, once it is as old as
the poll interval, or once chokidar has told of it and been quiet for as long as the debounce, and
while the watcher has not been stopped and no timer is overdue, there has been a call of `trigger`,
and its promise stands for a whole run after the change; so that an engine that has come to rest has
seen the change.
-/

namespace Wanfw.Orchestrator

open Wanfw.Js Wanfw.Store

/-! ### The watcher -/

/-- A delay as the timers of the runtime take it. -/
def timerDelay (ms : ℕ) : ℕ := if 1 ≤ ms ∧ ms ≤ 2147483647 then ms else 1

/-- `DesiredStateWatcherOptions`, with the defaults. -/
structure WatcherOptions where
  debounceMs : ℕ := 2000
  pollIntervalMs : ℕ := 30000

/-- The timers of `watchDesiredState`: when they go off, if they are set. -/
structure Watcher where
  debounceTimer : Option ℕ
  pollTimer : Option ℕ

/-- `watchDesiredState`. -/
def watchDesiredState (options : WatcherOptions) (now : ℕ) : Watcher :=
  ⟨none, some (now + timerDelay options.pollIntervalMs)⟩

/-- `scheduleChange`, which is also `nudge`. -/
def Watcher.scheduleChange (options : WatcherOptions) (w : Watcher) (now : ℕ) : Watcher :=
  { w with debounceTimer := some (now + timerDelay options.debounceMs) }

/-- `stop`. -/
def Watcher.stop (_ : Watcher) : Watcher := ⟨none, none⟩

/-! ### With the engine -/

/-- The watcher and the engine. `changes` and `told` record when a file changed, or chokidar told of
changes, and how many events of the engine there had been. -/
structure System where
  now : ℕ
  watcher : Watcher
  engine : Reconciler.Engine := {}
  changes : List (ℕ × ℕ) := []
  told : List (ℕ × ℕ) := []

/-- How far things are. -/
def System.mark (s : System) : ℕ × ℕ := (s.now, s.engine.history.length)

section Steps

variable (stages : List JsString) (options : WatcherOptions)

/-- `onChange`: `reconcileEngine.trigger("desired-state-change")`. -/
def System.onChange (s : System) : System := { s with engine := s.engine.trigger stages }

/-- What happens next. -/
inductive System.Step : System → System → Prop
  /-- Time passes. -/
  | pass (s : System) (d : ℕ) : Step s { s with now := s.now + d }
  /-- A file of the desired state is added, changed or removed. -/
  | change (s : System) : Step s { s with changes := s.changes ++ [s.mark] }
  /-- chokidar tells of it. -/
  | tell (s : System) :
      Step s { s with watcher := s.watcher.scheduleChange options s.now, told := s.told ++ [s.mark] }
  /-- The debounce timer goes off. -/
  | debounced {s : System} {t : ℕ} (h : s.watcher.debounceTimer = some t) (ht : t ≤ s.now) :
      Step s ({ s with watcher := { s.watcher with debounceTimer := none } }.onChange stages)
  /-- The poll timer goes off, and is set again. -/
  | polled {s : System} {t : ℕ} (h : s.watcher.pollTimer = some t) (ht : t ≤ s.now) :
      Step s ({ s with watcher := { s.watcher with
        pollTimer := some (s.now + timerDelay options.pollIntervalMs) } }.onChange stages)
  | stop (s : System) : Step s { s with watcher := s.watcher.stop }
  /-- The engine goes on, or another source calls `trigger`. -/
  | engine {s : System} {e : Reconciler.Engine} (h : Reconciler.Step stages s.engine e) :
      Step s { s with engine := e }

/-- The states of a system that was started at any time. -/
def System.Reachable (s : System) : Prop :=
  ∃ start, Relation.ReflTransGen (System.Step stages options)
    { now := start, watcher := watchDesiredState options start } s

end Steps

/-- No timer is overdue. -/
structure Watcher.Punctual (w : Watcher) (now : ℕ) : Prop where
  debounce : ∀ t, w.debounceTimer = some t → now < t
  poll : ∀ t, w.pollTimer = some t → now < t

/-! ### A promise is not handed out again -/

namespace Reconciler

variable {stages : List JsString} {e e' : Engine}

/-- Nobody is given a promise that has resolved. -/
def Closed (h : List Event) : Prop := ∀ a p b, h = a ++ .resolved p :: b → .called p ∉ b

theorem Closed.concat {h : List Event} {x : Event} (hc : Closed h) (hx : ∀ p, x = .called p →
    .resolved p ∉ h) : Closed (h ++ [x]) := by
  intro a p b heq hmem
  rcases History.append_singleton_eq heq with ⟨-, -, rfl⟩ | ⟨b', rfl, rfl⟩
  · cases hmem
  · rcases List.mem_append.mp hmem with hmem | hmem
    · exact hc a p b' rfl hmem
    · exact hx p (List.mem_singleton.mp hmem).symm (by simp)

/-- An event that is no call. -/
theorem Closed.quiet {h : List Event} {x : Event} (hc : Closed h) (hx : ∀ p, x ≠ .called p) :
    Closed (h ++ [x]) :=
  hc.concat fun p hp => absurd hp (hx p)

theorem Closed.next (hc : Closed e.history) (run : ℕ) (rest : List JsString) (ctx : Ctx) :
    Closed (e.next run rest ctx).1.history := by
  cases rest <;> exact hc.quiet (by simp)

theorem Closed.iterate (hc : Closed e.history) : Closed (e.iterate stages).1.history := by
  have hstart : Closed (e.history ++ [.started (e.runCount + 1)]) := hc.quiet (by simp)
  exact Closed.next (e := Engine.emit { e with pendingRerun := false, runCount := e.runCount + 1 } _) hstart _ _ _

theorem Closed.step (hc : Closed e.history) (hi : Inv stages e) (h : Step stages e e') :
    Closed e'.history := by
  cases h with
  | trigger =>
    rcases hi with hr | ⟨p, frame, hb⟩
    · -- the promise is a new one
      rw [Engine.trigger_of_idle hr.idle.running rfl]
      refine Closed.iterate (hc.concat fun p hp => ?_)
      cases hp
      exact fun hmem => (hr.fresh _ (.inr hmem)).false
    · obtain ⟨past, now, hturn, -⟩ := hb.turn
      rw [Engine.trigger, hb.running]
      refine hc.concat fun q hq => ?_
      cases hq
      exact hturn.open.2
  | settle h r ctx =>
    unfold Engine.settle
    split
    · exact hc.quiet (by simp)
    · exact hc.next _ _ _
  | resume h =>
    unfold Engine.resume
    split
    · exact hc.iterate
    · exact hc.quiet (by simp)

theorem closed_of_reachable (h : Reachable stages e) : Closed e.history := by
  induction h with
  | refl =>
    intro a p b heq
    simp at heq
  | tail hreach hstep ih => exact ih.step (inv_of_reachable hreach) hstep

/-- What happens is added to the history. -/
theorem Step.history (h : Step stages e e') : ∃ more, e'.history = e.history ++ more := by
  have hnext : ∀ (e : Engine) run rest ctx, ∃ more, (e.next run rest ctx).1.history = e.history ++ more := by
    intro e run rest ctx
    cases rest <;> exact ⟨_, rfl⟩
  have hiterate : ∀ e : Engine, ∃ more, (e.iterate stages).1.history = e.history ++ more := by
    intro e
    obtain ⟨more, hmore⟩ := hnext
      ({ e with pendingRerun := false, runCount := e.runCount + 1 }.emit (.started (e.runCount + 1)))
      (e.runCount + 1) stages {}
    exact ⟨_, hmore.trans (List.append_assoc _ _ _)⟩
  cases h with
  | trigger =>
    unfold Engine.trigger
    split
    · exact ⟨_, rfl⟩
    · obtain ⟨more, hmore⟩ := hiterate ({ e with promises := e.promises + 1 }.emit (.called e.promises))
      exact ⟨_, hmore.trans (List.append_assoc _ _ _)⟩
  | settle h r ctx =>
    unfold Engine.settle
    split
    · exact ⟨_, rfl⟩
    · exact hnext _ _ _ _
  | resume h =>
    unfold Engine.resume
    split
    · exact hiterate e
    · exact ⟨_, rfl⟩

/-- `trigger` was called after the first `n` events. -/
def CalledAfter (e : Engine) (n : ℕ) : Prop := ∃ p, .called p ∈ e.history.drop n

theorem CalledAfter.step {n : ℕ} (hn : CalledAfter e n) (h : Step stages e e') : CalledAfter e' n := by
  obtain ⟨p, hp⟩ := hn
  obtain ⟨more, hmore⟩ := h.history
  rw [CalledAfter, hmore, List.drop_append]
  exact ⟨p, List.mem_append_left _ hp⟩

/-- A call. -/
theorem calledAfter_trigger {n : ℕ} (hn : n ≤ e.history.length) : CalledAfter (e.trigger stages) n := by
  have hcalled : ∃ p more, (e.trigger stages).history = e.history ++ .called p :: more := by
    unfold Engine.trigger
    split
    · exact ⟨_, [], rfl⟩
    · unfold Engine.iterate Engine.next
      split <;> exact ⟨e.promises, _, by simp [Engine.emit]; rfl⟩
  obtain ⟨p, more, hmore⟩ := hcalled
  refine ⟨p, ?_⟩
  rw [hmore, List.drop_append_of_le_length hn]
  simp

/-- A call after the first `n` events stands for a whole run after them, and an engine at rest has
had it. -/
theorem CalledAfter.run {n : ℕ} (hn : CalledAfter e n) (hreach : Reachable stages e) :
    (∃ p before after, e.history.drop n = before ++ .called p :: after ∧
    (.resolved p ∈ e.history → HoldsRun stages after)) ∧
      (e.Idle → HoldsRun stages (e.history.drop n)) := by
  obtain ⟨p, hp⟩ := hn
  obtain ⟨before, after, hdrop⟩ := List.append_of_mem hp
  have hhistory : e.history = e.history.take n ++ before ++ .called p :: after := by
    rw [List.append_assoc, ← hdrop, List.take_append_drop]
  have hserved : .resolved p ∈ e.history → HoldsRun stages after := by
    intro hres
    obtain ⟨a, b, heq⟩ := List.append_of_mem hres
    -- the promise resolves after the call
    rw [hhistory] at heq
    rcases History.cases_of_eq heq with ⟨b', hb, rfl⟩ | ⟨-, hx, -⟩ | hmem
    · exact absurd (by simp) (closed_of_reachable hreach a p (b' ++ .called p :: after) (hhistory.trans heq))
    · cases hx
    · obtain ⟨inside, rest, rfl⟩ := List.append_of_mem hmem
      obtain ⟨run₀, run, inside', outcome, after', hrun, hrest⟩ :=
        hreach.serves.sound.served (e.history.take n ++ before) p inside rest (hhistory.trans (by simp))
      exact ⟨run₀, run, inside', outcome, after' ++ .resolved p :: rest, by rw [hrun]; simp, hrest⟩
  refine ⟨⟨p, before, after, hdrop, hserved⟩, fun hidle => ?_⟩
  rcases inv_of_reachable hreach with hr | ⟨q, frame, hb⟩
  · obtain ⟨run₀, run, inside, outcome, after', hrun, hrest⟩ :=
      hserved (hr.answered p (by rw [hhistory]; simp))
    exact ⟨before ++ .called p :: run₀, run, inside, outcome, after', by rw [hdrop, hrun]; simp, hrest⟩
  · have hloops := hb.loops
    rw [hidle.loops] at hloops
    cases hloops

end Reconciler

/-! ### The invariant -/

section Invariant

variable {stages : List JsString} {options : WatcherOptions} {s s' : System}

/-- What is recorded has happened. -/
def System.Past (s : System) (marks : List (ℕ × ℕ)) : Prop :=
  ∀ m ∈ marks, m.1 ≤ s.now ∧ m.2 ≤ s.engine.history.length

/-- What holds of the watcher and the engine: `trigger` has been called since, or the timer is set
that will call it. -/
structure System.Watched (stages : List JsString) (options : WatcherOptions) (s : System) : Prop where
  reachable : Reconciler.Reachable stages s.engine
  changes : s.Past s.changes
  told : s.Past s.told
  /-- The poll timer is never set for later than its interval from now. -/
  interval : ∀ t, s.watcher.pollTimer = some t → t ≤ s.now + timerDelay options.pollIntervalMs
  polled : ∀ t, s.watcher.pollTimer = some t → ∀ m ∈ s.changes,
    Reconciler.CalledAfter s.engine m.2 ∨ t ≤ m.1 + timerDelay options.pollIntervalMs
  /-- The debounce timer is set for what chokidar told last. -/
  debounce : ∀ t, s.watcher.debounceTimer = some t →
    ∃ m ∈ s.told, t = m.1 + timerDelay options.debounceMs
  debounced : s.watcher.pollTimer ≠ none → ∀ m ∈ s.told,
    Reconciler.CalledAfter s.engine m.2 ∨ s.watcher.debounceTimer ≠ none

theorem System.Past.concat {marks : List (ℕ × ℕ)} (h : s.Past marks) : s.Past (marks ++ [s.mark]) := by
  intro m hm
  rcases List.mem_append.mp hm with hm | hm
  · exact h m hm
  · rw [List.mem_singleton.mp hm]
    exact ⟨le_rfl, le_rfl⟩

/-- The engine goes on. -/
theorem System.Past.step {marks : List (ℕ × ℕ)} {e : Reconciler.Engine} (h : s.Past marks)
    (hstep : Reconciler.Step stages s.engine e) {w : Watcher} :
    System.Past { s with watcher := w, engine := e } marks := by
  intro m hm
  obtain ⟨more, hmore⟩ := hstep.history
  refine ⟨(h m hm).1, (h m hm).2.trans ?_⟩
  change _ ≤ e.history.length
  rw [hmore, List.length_append]
  exact Nat.le_add_right _ _

/-- A timer goes off: everything recorded has its call. -/
theorem System.Watched.trigger (h : s.Watched stages options) {w : Watcher}
    (hinterval : ∀ t, w.pollTimer = some t → t ≤ s.now + timerDelay options.pollIntervalMs)
    (hdebounce : ∀ t, w.debounceTimer = some t →
      ∃ m ∈ s.told, t = m.1 + timerDelay options.debounceMs) :
    System.Watched stages options ({ s with watcher := w }.onChange stages) where
  reachable := h.reachable.tail (.trigger _)
  changes := h.changes.step (.trigger _)
  told := h.told.step (.trigger _)
  interval := hinterval
  polled _ _ m hm := .inl (Reconciler.calledAfter_trigger (h.changes m hm).2)
  debounce := hdebounce
  debounced _ m hm := .inl (Reconciler.calledAfter_trigger (h.told m hm).2)

theorem System.Watched.step (h : s.Watched stages options) (hstep : System.Step stages options s s') :
    s'.Watched stages options := by
  cases hstep with
  | pass d =>
    have hpast : ∀ marks, s.Past marks → System.Past { s with now := s.now + d } marks :=
        fun marks hmarks m hm =>
      ⟨(hmarks m hm).1.trans (Nat.le_add_right _ _), (hmarks m hm).2⟩
    exact { h with
      changes := hpast _ h.changes
      told := hpast _ h.told
      interval := fun t ht => (h.interval t ht).trans (by dsimp only; omega) }
  | change =>
    refine { h with changes := h.changes.concat, polled := fun t ht m hm => ?_ }
    rcases List.mem_append.mp hm with hm | hm
    · exact h.polled t ht m hm
    · rw [List.mem_singleton.mp hm]
      exact .inr (h.interval t ht)
  | tell =>
    refine { h with
      told := h.told.concat, debounce := fun t ht => ?_, debounced := fun hpoll m hm => .inr nofun }
    cases ht
    exact ⟨s.mark, by simp, rfl⟩
  | debounced ht hle => exact h.trigger h.interval nofun
  | polled ht hle =>
    refine h.trigger (fun t ht => ?_) h.debounce
    cases ht
    exact le_rfl
  | stop =>
    exact { h with
      interval := nofun, polled := nofun, debounce := nofun, debounced := fun hpoll => absurd rfl hpoll }
  | engine hengine =>
    exact { h with
      reachable := h.reachable.tail hengine
      changes := h.changes.step hengine
      told := h.told.step hengine
      polled := fun t ht m hm => (h.polled t ht m hm).imp_left fun hcalled => hcalled.step hengine
      debounced := fun hpoll m hm => (h.debounced hpoll m hm).imp_left fun hcalled => hcalled.step hengine }

theorem System.Reachable.watched (h : s.Reachable stages options) : s.Watched stages options := by
  obtain ⟨start, h⟩ := h
  induction h with
  | refl =>
    refine ⟨.refl, nofun, nofun, fun t ht => ?_, nofun, nofun, nofun⟩
    cases ht
    exact le_rfl
  | tail _ hstep ih => exact ih.step hstep

end Invariant

/-- **No change is missed.** In every reachable state in which the watcher has not been stopped and
no timer is overdue: of a change which is as old as the poll interval, or of which chokidar has told
and then been quiet for as long as the debounce, `trigger` has been called since. When the promise
of that call has resolved, or the engine is idle, there has been a whole run since. -/
theorem change_reconciled {stages : List JsString} {options : WatcherOptions} {s : System} {c n : ℕ}
    (hreach : s.Reachable stages options) (hrunning : s.watcher.pollTimer ≠ none)
    (hpunctual : s.watcher.Punctual s.now) (hchange : (c, n) ∈ s.changes)
    (hdue : c + timerDelay options.pollIntervalMs ≤ s.now ∨
      (∃ m ∈ s.told, n ≤ m.2) ∧ ∀ m ∈ s.told, m.1 + timerDelay options.debounceMs ≤ s.now) :
    (∃ p before after, s.engine.history.drop n = before ++ .called p :: after ∧
        (.resolved p ∈ s.engine.history → Reconciler.HoldsRun stages after)) ∧
      (s.engine.Idle → Reconciler.HoldsRun stages (s.engine.history.drop n)) := by
  have hw := hreach.watched
  have hcalled : Reconciler.CalledAfter s.engine n := by
    rcases hdue with hold | ⟨⟨m, hm, hle⟩, hquiet⟩
    · obtain ⟨t, ht⟩ := Option.ne_none_iff_exists'.mp hrunning
      have hlate := hpunctual.poll t ht
      exact (hw.polled t ht (c, n) hchange).resolve_right (by dsimp only; omega)
    · have hnone : ¬ s.watcher.debounceTimer ≠ none := by
        intro hset
        obtain ⟨t, ht⟩ := Option.ne_none_iff_exists'.mp hset
        obtain ⟨m', hm', rfl⟩ := hw.debounce t ht
        exact absurd (hquiet m' hm') (not_le.mpr (hpunctual.debounce _ ht))
      obtain ⟨p, hp⟩ := (hw.debounced hrunning m hm).resolve_right hnone
      refine ⟨p, ?_⟩
      rw [← Nat.sub_add_cancel hle, Nat.add_comm, ← List.drop_drop] at hp
      exact List.mem_of_mem_drop hp
  exact hcalled.run hw.reachable

/-- A change of which chokidar tells, two seconds, and a run. -/
theorem change_reconciled_told : ∃ s : System, s.Reachable [js "load"] {} ∧ s.changes = [(0, 0)] ∧
    s.engine.Idle ∧ Reconciler.HoldsRun [js "load"] (s.engine.history.drop 0) := by
  have hreach : System.Reachable [js "load"] {} _ :=
    ⟨0, ((((((Relation.ReflTransGen.refl).tail (.change _)).tail (.tell _)).tail (.pass _ 2000)).tail
      (.debounced rfl (by decide))).tail
      (.engine (.settle (show _ = [] ++ _ :: [] from rfl) (.result none) {}))).tail
      (.engine (.resume (show _ = [] ++ _ :: [] from rfl)))⟩
  refine ⟨_, hreach, rfl, ⟨rfl, rfl, rfl⟩, ?_⟩
  have htold : (0, 0) ∈ [(0, 0)] := List.mem_singleton_self (0, 0)
  refine (change_reconciled (c := 0) hreach nofun ⟨nofun, fun t ht => ?_⟩ htold
    (.inr ⟨⟨(0, 0), htold, le_rfl⟩, fun m hm => ?_⟩)).2 ⟨rfl, rfl, rfl⟩
  · cases ht
    decide
  · rw [show m = (0, 0) from List.mem_singleton.mp hm]
    decide

end Wanfw.Orchestrator
