import Mathlib.Logic.Relation
import Wanfw.Orchestrator.Pipeline
import Wanfw.Store.History

/-!
# The reconcile engine

`reconciler/engine.ts`, `ReconcileEngine`. A call of `trigger` either starts a loop,
an asynchronous function that runs the pipeline again and again while `pendingRerun`
is set, or sets `pendingRerun` for the loop that is running.

What runs between two `await`s is one step. A loop is suspended at the `await` of a
stage or at that of a run that has returned; at these points other code may call
`trigger`, and any stage may settle in any way. Nothing in the state says that there
is one loop only: `loops` holds every call of the asynchronous function that has not
ended. `Reachable.serves` is what the engine owes its callers, in every reachable state:
runs do not overlap, every call is served by a whole run, the calls that arrive during
a run cause one more, and after the last promise the engine is idle. `run_of_runOnce`: a
run can end as the sequential `runOnce` of the pipeline does.
-/

namespace Wanfw.Orchestrator

open Wanfw.Js Wanfw.Store

namespace Reconciler

/-! ### The engine -/

/-- What happens, as a caller of the engine sees it. Runs are numbered by `runCount`. -/
inductive Event where
  /-- `trigger` is called and returns this promise. -/
  | called (promise : ℕ)
  /-- A run starts. -/
  | started (run : ℕ)
  /-- A run calls this stage. -/
  | stage (run : ℕ) (name : JsString)
  /-- A run is over. -/
  | ended (run : ℕ) (outcome : ReconcileOutcome)
  /-- The promise resolves. -/
  | resolved (promise : ℕ)

/-- Where a loop is suspended. -/
inductive Frame where
  /-- At `await stage.run(ctx)`; the stages that follow. -/
  | stage (run : ℕ) (name : JsString) (rest : List JsString)
  /-- At `await this.runOnce()`, which has returned. -/
  | returned

/-- The fields of `ReconcileEngine`, the loops that have not ended, each with its promise, and what
has happened so far. -/
structure Engine where
  runningPromise : Option ℕ := none
  pendingRerun : Bool := false
  runCount : ℕ := 0
  loops : List (ℕ × Frame) := []
  /-- How many promises there are. -/
  promises : ℕ := 0
  history : List Event := []

/-- What a stage comes to. -/
inductive Settled where
  | result (r : StageResult)
  | threw (message : JsString)

/-- `result.error`, if the result is not ok. -/
def Settled.error (name : JsString) : Settled → Option StageError
  | .result r => r
  | .threw message => some ⟨name, none, message⟩

/-- The outcome of a run. -/
def outcomeOf (lastError degraded : Option StageError) : ReconcileOutcome :=
  match lastError, degraded with
  | some e, _ => ⟨.error, some e⟩
  | none, some reason => ⟨.degraded, some reason⟩
  | none, none => ⟨.live, none⟩

/-- Add an event. -/
def Engine.emit (e : Engine) (x : Event) : Engine := { e with history := e.history ++ [x] }

/-- The loop of `runOnce` over the stages that are left, up to the next `await`. -/
def Engine.next (e : Engine) (run : ℕ) (rest : List JsString) (ctx : Ctx) : Engine × Frame :=
  match rest with
  | [] => (e.emit (.ended run (outcomeOf none ctx.degraded)), .returned)
  | name :: rest => (e.emit (.stage run name), .stage run name rest)

/-- `runOnce` goes on after a stage, which has left `ctx` behind. -/
def Engine.settle (e : Engine) (run : ℕ) (name : JsString) (rest : List JsString) (r : Settled) (ctx : Ctx) :
    Engine × Frame :=
  match r.error name with
  | some error => (e.emit (.ended run (outcomeOf (some error) ctx.degraded)), .returned)
  | none => e.next run rest ctx

theorem Engine.settle_some {e : Engine} {run : ℕ} {name : JsString} {rest : List JsString} {r : Settled} {ctx : Ctx}
    {error : StageError} (h : r.error name = some error) :
    e.settle run name rest r ctx = (e.emit (.ended run (outcomeOf (some error) ctx.degraded)), .returned) := by
  rw [Engine.settle, h]

theorem Engine.settle_none {e : Engine} {run : ℕ} {name : JsString} {rest : List JsString} {r : Settled} {ctx : Ctx}
    (h : r.error name = none) : e.settle run name rest r ctx = e.next run rest ctx := by
  rw [Engine.settle, h]

section Steps

variable (stages : List JsString)

/-- The body of the loop, up to the first `await`. -/
def Engine.iterate (e : Engine) : Engine × Frame :=
  let e := { e with pendingRerun := false, runCount := e.runCount + 1 }
  (e.emit (.started e.runCount)).next e.runCount stages {}

/-- `trigger`. -/
def Engine.trigger (e : Engine) : Engine :=
  match e.runningPromise with
  | some p => { e with pendingRerun := true }.emit (.called p)
  | none =>
    let p := e.promises
    let (e, frame) := { e with promises := p + 1 }.emit (.called p) |>.iterate stages
    { e with runningPromise := some p, loops := e.loops ++ [(p, frame)] }

/-- The loop with promise `p` goes on after `runOnce`: another run, or the end of the loop. -/
def Engine.resume (e : Engine) (p : ℕ) : Engine × Option Frame :=
  if e.pendingRerun then
    let (e, frame) := e.iterate stages
    (e, some frame)
  else ({ e with runningPromise := none }.emit (.resolved p), none)

/-- A step: a call of `trigger`, a stage that settles, or a loop that goes on. -/
inductive Step : Engine → Engine → Prop
  | trigger (e : Engine) : Step e (e.trigger stages)
  | settle {e : Engine} {pre post : List (ℕ × Frame)} {p run : ℕ} {name : JsString} {rest : List JsString}
      (h : e.loops = pre ++ (p, .stage run name rest) :: post) (r : Settled) (ctx : Ctx) :
      Step e { (e.settle run name rest r ctx).1 with loops := pre ++ (p, (e.settle run name rest r ctx).2) :: post }
  | resume {e : Engine} {pre post : List (ℕ × Frame)} {p : ℕ} (h : e.loops = pre ++ (p, .returned) :: post) :
      Step e { (e.resume stages p).1 with loops := pre ++ ((e.resume stages p).2.map fun f => (p, f)).toList ++ post }

/-- The states of an engine that starts without a run. -/
def Reachable (e : Engine) : Prop := Relation.ReflTransGen (Step stages) {} e

/-! ### What callers rely on -/

/-- The stages that a run called, in their order. -/
def stagesOf (run : ℕ) (h : List Event) : List JsString :=
  h.filterMap fun x =>
    match x with
    | .stage k name => if k = run then some name else none
    | _ => none

/-- A run starts or a promise resolves: the loop has gone on. -/
def Event.isTurn : Event → Bool
  | .started _ | .resolved _ => true
  | _ => false

/-- These events hold a whole run of the stages from the first on. -/
def HoldsRun (h : List Event) : Prop :=
  ∃ before run inside outcome after, h = before ++ .started run :: inside ++ .ended run outcome :: after ∧
    stagesOf run inside <+: stages ∧ (stages ≠ [] → stagesOf run inside ≠ [])

/-- Every run in these events is over. -/
def AllEnded (h : List Event) : Prop := ∀ a k b, h = a ++ .started k :: b → ∃ o, .ended k o ∈ b

/-- No loop, and nothing left to do. -/
structure Engine.Idle (e : Engine) : Prop where
  running : e.runningPromise = none
  pending : e.pendingRerun = false
  loops : e.loops = []

/-- What a history of the engine satisfies. -/
structure Sound (h : List Event) : Prop where
  /-- When a run starts, the runs before it are over. -/
  single : ∀ a k b, h = a ++ .started k :: b → AllEnded a
  /-- Between a call and its promise there is a whole run. -/
  served : ∀ a p b c, h = a ++ .called p :: b ++ .resolved p :: c → HoldsRun stages b
  /-- When the loop goes on after a run, it runs once more if there was a call since the run
  started, and ends if there was none. -/
  coalesced : ∀ a k b x c, h = a ++ .started k :: b ++ x :: c → (∀ y ∈ b, y.isTurn = false) → x.isTurn = true →
    x = .started (k + 1) ∧ (∃ q, .called q ∈ b) ∨ (∃ p, x = .resolved p) ∧ ∀ q, .called q ∉ b

/-- What the engine owes the callers of `trigger`. -/
structure Serves (e : Engine) : Prop where
  sound : Sound stages e.history
  /-- Once every promise has resolved the engine is idle, and the next call starts a new run. -/
  rests : (∀ p, .called p ∈ e.history → .resolved p ∈ e.history) →
    e.Idle ∧ ∃ p k more, (e.trigger stages).history = e.history ++ .called p :: .started k :: more ∧ .called p ∉ e.history

end Steps

/-! ### Histories that grow -/

section Histories

variable {stages : List JsString} {h past now : List Event} {x : Event} {k p : ℕ}

theorem stagesOf_append (k : ℕ) (h h' : List Event) : stagesOf k (h ++ h') = stagesOf k h ++ stagesOf k h' :=
  List.filterMap_append ..

theorem AllEnded.nil : AllEnded [] := by
  rintro a k b h
  simp at h

/-- An event that is no start leaves the runs over that were. -/
theorem AllEnded.snoc (hended : AllEnded h) (hx : ∀ k, x ≠ .started k) : AllEnded (h ++ [x]) := by
  intro a k b heq
  rcases History.append_singleton_eq heq with ⟨-, rfl, -⟩ | ⟨b', rfl, rfl⟩
  · exact absurd rfl (hx k)
  · obtain ⟨o, ho⟩ := hended a k b' rfl
    exact ⟨o, List.mem_append_left _ ho⟩

/-- The runs are over when those before the last start are, and the last one is. -/
theorem AllEnded.turn (hended : AllEnded past) (hquiet : ∀ y ∈ now, y.isTurn = false) {o : ReconcileOutcome}
    (ho : .ended k o ∈ now) : AllEnded (past ++ .started k :: now) := by
  intro a k' b heq
  rcases History.cases_of_eq heq with ⟨b', rfl, rfl⟩ | ⟨-, hk, rfl⟩ | hmem
  · obtain ⟨o', ho'⟩ := hended a k' b' rfl
    exact ⟨o', List.mem_append_left _ ho'⟩
  · cases hk
    exact ⟨o, ho⟩
  · exact absurd (hquiet _ hmem) (by simp [Event.isTurn])

theorem Sound.nil : Sound stages [] where
  single := by simp
  served := by simp
  coalesced := by simp

/-- Between turns nothing is claimed that was not claimed before. -/
theorem Sound.quiet (hs : Sound stages h) (hx : x.isTurn = false) : Sound stages (h ++ [x]) where
  single a k b heq := by
    rcases History.append_singleton_eq heq with ⟨-, rfl, -⟩ | ⟨b', -, hh⟩
    · cases hx
    · exact hs.single a k b' hh
  served a p b c heq := by
    rw [List.append_assoc, List.cons_append, ← List.cons_append, ← List.append_assoc] at heq
    rcases History.append_singleton_eq heq with ⟨-, rfl, -⟩ | ⟨c', -, hh⟩
    · cases hx
    · exact hs.served a p b c' (by rw [hh])
  coalesced a k b y c heq hquiet hturn := by
    rw [List.append_assoc, List.cons_append, ← List.cons_append, ← List.append_assoc] at heq
    rcases History.append_singleton_eq heq with ⟨-, rfl, -⟩ | ⟨c', -, hh⟩
    · rw [hx] at hturn
      cases hturn
    · exact hs.coalesced a k b y c' (by rw [hh]) hquiet hturn

/-- A run starts. -/
theorem Sound.start (hs : Sound stages h) (hended : AllEnded h)
    (hcall : ∀ a k' b, h = a ++ .started k' :: b → (∀ y ∈ b, y.isTurn = false) → k = k' + 1 ∧ ∃ q, .called q ∈ b) :
    Sound stages (h ++ [.started k]) where
  single a k' b heq := by
    rcases History.append_singleton_eq heq with ⟨rfl, -, -⟩ | ⟨b', -, hh⟩
    · exact hended
    · exact hs.single a k' b' hh
  served a p b c heq := by
    rw [List.append_assoc, List.cons_append, ← List.cons_append, ← List.append_assoc] at heq
    rcases History.append_singleton_eq heq with ⟨-, hx, -⟩ | ⟨c', -, hh⟩
    · cases hx
    · exact hs.served a p b c' (by rw [hh])
  coalesced a k' b y c heq hquiet hturn := by
    rw [List.append_assoc, List.cons_append, ← List.cons_append, ← List.append_assoc] at heq
    rcases History.append_singleton_eq heq with ⟨hh, rfl, -⟩ | ⟨c', -, hh⟩
    · obtain ⟨rfl, hq⟩ := hcall a k' b hh.symm hquiet
      exact .inl ⟨rfl, hq⟩
    · exact hs.coalesced a k' b y c' (by rw [hh]) hquiet hturn

/-- A promise resolves. -/
theorem Sound.resolve (hs : Sound stages h) (hserved : ∀ a b, h = a ++ .called p :: b → HoldsRun stages b)
    (hcall : ∀ a k b, h = a ++ .started k :: b → (∀ y ∈ b, y.isTurn = false) → ∀ q, .called q ∉ b) :
    Sound stages (h ++ [.resolved p]) where
  single a k' b heq := by
    rcases History.append_singleton_eq heq with ⟨-, hx, -⟩ | ⟨b', -, hh⟩
    · cases hx
    · exact hs.single a k' b' hh
  served a p' b c heq := by
    rw [List.append_assoc, List.cons_append, ← List.cons_append, ← List.append_assoc] at heq
    rcases History.append_singleton_eq heq with ⟨hh, hx, -⟩ | ⟨c', -, hh⟩
    · cases hx
      exact hserved a b hh.symm
    · exact hs.served a p' b c' (by rw [hh])
  coalesced a k' b y c heq hquiet hturn := by
    rw [List.append_assoc, List.cons_append, ← List.cons_append, ← List.append_assoc] at heq
    rcases History.append_singleton_eq heq with ⟨hh, rfl, -⟩ | ⟨c', -, hh⟩
    · exact .inr ⟨⟨p, rfl⟩, hcall a k' b hh.symm hquiet⟩
    · exact hs.coalesced a k' b y c' (by rw [hh]) hquiet hturn

end Histories

/-! ### The invariant -/

section Invariant

variable {stages : List JsString} {e : Engine} {past now : List Event} {p : ℕ} {frame : Frame}

/-- Every promise that is spoken of was handed out. -/
def Fresh (e : Engine) : Prop := ∀ q, .called q ∈ e.history ∨ .resolved q ∈ e.history → q < e.promises

/-- The loop with promise `p` is in the run `e.runCount`, and `now` has happened since it started. -/
structure Turn (stages : List JsString) (e : Engine) (p : ℕ) (past now : List Event) : Prop where
  history : e.history = past ++ .started e.runCount :: now
  quiet : ∀ x ∈ now, x.isTurn = false
  ended : AllEnded past
  own : ∀ q, .called q ∈ now → q = p
  pending : e.pendingRerun = true ↔ .called p ∈ now
  answered : ∀ q, .called q ∈ past → q = p ∨ .resolved q ∈ past
  awaited : .called p ∈ past ∧ .resolved p ∉ past
  sound : Sound stages e.history
  fresh : Fresh e

/-- Where the run stands. -/
def Stands (stages : List JsString) (run : ℕ) (now : List Event) : Frame → Prop
  | .stage k name rest => k = run ∧ stagesOf run now ++ rest = stages ∧ name ∈ stagesOf run now
  | .returned => ∃ inside outcome after, now = inside ++ .ended run outcome :: after ∧
      stagesOf run inside <+: stages ∧ (stages ≠ [] → stagesOf run inside ≠ [])

/-- There is one loop, with promise `p`. -/
structure Busy (stages : List JsString) (e : Engine) (p : ℕ) (frame : Frame) : Prop where
  running : e.runningPromise = some p
  loops : e.loops = [(p, frame)]
  turn : ∃ past now, Turn stages e p past now ∧ Stands stages e.runCount now frame

/-- There is no loop. -/
structure Rest (stages : List JsString) (e : Engine) : Prop where
  idle : e.Idle
  ended : AllEnded e.history
  answered : ∀ q, .called q ∈ e.history → .resolved q ∈ e.history
  /-- The last event is that a promise resolved. -/
  last : e.history = [] ∨ ∃ h q, e.history = h ++ [.resolved q]
  sound : Sound stages e.history
  fresh : Fresh e

/-- The invariant of the engine. -/
def Inv (stages : List JsString) (e : Engine) : Prop := Rest stages e ∨ ∃ p frame, Busy stages e p frame

@[simp] theorem Engine.emit_history (e : Engine) (x : Event) : (e.emit x).history = e.history ++ [x] := rfl

/-- The promise was handed out and has not resolved. -/
theorem Turn.open (ht : Turn stages e p past now) : .called p ∈ e.history ∧ .resolved p ∉ e.history := by
  refine ⟨ht.history ▸ List.mem_append_left _ ht.awaited.1, fun hmem => ?_⟩
  rw [ht.history] at hmem
  rcases List.mem_append.mp hmem with hmem | hmem
  · exact ht.awaited.2 hmem
  · exact absurd (ht.quiet _ ((List.mem_cons.mp hmem).resolve_left (by simp))) (by simp [Event.isTurn])

/-- An event of the run itself. -/
theorem Turn.emit (ht : Turn stages e p past now) {x : Event} (hx : x.isTurn = false) (hcall : ∀ q, x ≠ .called q) :
    Turn stages (e.emit x) p past (now ++ [x]) where
  history := by
    rw [Engine.emit_history, ht.history, List.append_assoc]
    rfl
  quiet y hy := (List.mem_append.mp hy).elim (ht.quiet y) fun h => by rwa [List.mem_singleton.mp h]
  ended := ht.ended
  own q hq := ht.own q ((List.mem_append.mp hq).resolve_right fun h => hcall q (List.mem_singleton.mp h).symm)
  pending := by
    refine ht.pending.trans ⟨fun h => List.mem_append_left _ h, fun h => ?_⟩
    exact (List.mem_append.mp h).resolve_right fun h => hcall p (List.mem_singleton.mp h).symm
  answered := ht.answered
  awaited := ht.awaited
  sound := ht.sound.quiet hx
  fresh := by
    intro q hq
    simp only [Engine.emit_history, List.mem_append, List.mem_singleton] at hq
    rcases hq with (hq | hq) | (hq | hq)
    · exact ht.fresh q (.inl hq)
    · exact absurd hq.symm (hcall q)
    · exact ht.fresh q (.inr hq)
    · rw [← hq] at hx
      cases hx

/-- A call while the loop runs. -/
theorem Turn.call (ht : Turn stages e p past now) :
    Turn stages ({ e with pendingRerun := true }.emit (.called p)) p past (now ++ [.called p]) where
  history := by
    change e.history ++ _ = _
    rw [ht.history, List.append_assoc]
    rfl
  quiet y hy := (List.mem_append.mp hy).elim (ht.quiet y) fun h => by rw [List.mem_singleton.mp h]; rfl
  ended := ht.ended
  own q hq := (List.mem_append.mp hq).elim (ht.own q) fun h => by cases List.mem_singleton.mp h; rfl
  pending := by simp [Engine.emit]
  answered := ht.answered
  awaited := ht.awaited
  sound := ht.sound.quiet rfl
  fresh := by
    intro q hq
    simp only [Engine.emit_history, List.mem_append, List.mem_singleton, Event.called.injEq, reduceCtorEq, or_false] at hq
    rcases hq with (hq | rfl) | hq
    · exact ht.fresh q (.inl hq)
    · exact ht.fresh q (.inl ht.open.1)
    · exact ht.fresh q (.inr hq)

/-- `runOnce` from the stages that are left to the next `await`. -/
theorem Turn.next (ht : Turn stages e p past now) {rest : List JsString} (hrest : stagesOf e.runCount now ++ rest = stages)
    (ctx : Ctx) : ∃ now', Turn stages (e.next e.runCount rest ctx).1 p past now' ∧
      Stands stages e.runCount now' (e.next e.runCount rest ctx).2 := by
  cases rest with
  | nil =>
    refine ⟨_, ht.emit rfl (by simp), now, _, [], rfl, ?_⟩
    rw [List.append_nil] at hrest
    rw [hrest]
    exact ⟨List.prefix_rfl, id⟩
  | cons name rest =>
    refine ⟨_, ht.emit rfl (by simp), rfl, ?_⟩
    rw [stagesOf_append, show stagesOf e.runCount [.stage e.runCount name] = [name] by simp [stagesOf]]
    exact ⟨by rw [List.append_assoc]; exact hrest, by simp⟩

/-- A new run of the loop with promise `p`. -/
theorem turn_iterate (hended : AllEnded e.history) (hs : Sound stages e.history) (hf : Fresh e)
    (hanswered : ∀ q, .called q ∈ e.history → q = p ∨ .resolved q ∈ e.history)
    (hawaited : .called p ∈ e.history ∧ .resolved p ∉ e.history)
    (hcall : ∀ a k b, e.history = a ++ .started k :: b → (∀ y ∈ b, y.isTurn = false) →
      e.runCount + 1 = k + 1 ∧ ∃ q, .called q ∈ b) :
    ∃ past now, Turn stages (e.iterate stages).1 p past now ∧
      Stands stages (e.runCount + 1) now (e.iterate stages).2 ∧ (e.iterate stages).1.runCount = e.runCount + 1 := by
  have hstart : Turn stages ({ e with pendingRerun := false, runCount := e.runCount + 1 }.emit (.started (e.runCount + 1)))
      p e.history [] := by
    refine ⟨rfl, by simp, hended, by simp, by simp [Engine.emit], hanswered, hawaited, hs.start hended hcall, ?_⟩
    intro q hq
    exact hf q (by simpa using hq)
  have hstages : stagesOf (e.runCount + 1) [] ++ stages = stages := by simp [stagesOf]
  obtain ⟨now, hturn, hstands⟩ := hstart.next hstages {}
  refine ⟨e.history, now, hturn, hstands, ?_⟩
  unfold Engine.iterate Engine.next
  split <;> rfl

theorem inv_init : Inv stages {} :=
  .inl ⟨⟨rfl, rfl, rfl⟩, AllEnded.nil, by simp, .inl rfl, Sound.nil, by simp [Fresh]⟩

/-! ### The steps keep it -/

theorem Engine.next_running (e : Engine) (run : ℕ) (rest : List JsString) (ctx : Ctx) :
    (e.next run rest ctx).1.runningPromise = e.runningPromise := by
  cases rest <;> rfl

theorem Engine.next_runCount (e : Engine) (run : ℕ) (rest : List JsString) (ctx : Ctx) :
    (e.next run rest ctx).1.runCount = e.runCount := by
  cases rest <;> rfl

/-- Only the history and the counters matter to a turn. -/
theorem Turn.congr {e' : Engine} (ht : Turn stages e p past now) (hh : e'.history = e.history)
    (hp : e'.pendingRerun = e.pendingRerun) (hr : e'.runCount = e.runCount) (hn : e'.promises = e.promises) :
    Turn stages e' p past now where
  history := by rw [hh, hr, ht.history]
  quiet := ht.quiet
  ended := ht.ended
  own := ht.own
  pending := hp ▸ ht.pending
  answered := ht.answered
  awaited := ht.awaited
  sound := hh ▸ ht.sound
  fresh := by
    intro q hq
    rw [hn]
    exact ht.fresh q (hh ▸ hq)

/-- A call of an idle engine. -/
theorem Engine.trigger_of_idle (h : e.runningPromise = none) {e₁ : Engine}
    (h₁ : { e with promises := e.promises + 1 }.emit (.called e.promises) = e₁) :
    e.trigger stages = { (e₁.iterate stages).1 with
      runningPromise := some e.promises
      loops := (e₁.iterate stages).1.loops ++ [(e.promises, (e₁.iterate stages).2)] } := by
  subst h₁
  simp only [Engine.trigger, h]

theorem Engine.iterate_loops (e : Engine) : (e.iterate stages).1.loops = e.loops := by
  unfold Engine.iterate Engine.next
  split <;> rfl

/-- The first call after a rest starts a run. -/
theorem Rest.trigger (hr : Rest stages e) : ∃ frame, Busy stages (e.trigger stages) e.promises frame := by
  obtain ⟨e₁, h₁⟩ : ∃ e₁, { e with promises := e.promises + 1 }.emit (.called e.promises) = e₁ := ⟨_, rfl⟩
  have hhistory : e₁.history = e.history ++ [.called e.promises] := by rw [← h₁]; rfl
  have hcount₁ : e₁.runCount = e.runCount := by rw [← h₁]; rfl
  have hloops₁ : e₁.loops = [] := by rw [← h₁]; exact hr.idle.loops
  have hnew : .resolved e.promises ∉ e.history := fun hq => (hr.fresh _ (.inr hq)).ne rfl
  have hfresh : Fresh e₁ := by
    intro q hq
    have hpromises : e₁.promises = e.promises + 1 := by rw [← h₁]; rfl
    rw [hpromises]
    simp only [hhistory, List.mem_append, List.mem_singleton, Event.called.injEq, reduceCtorEq, or_false] at hq
    rcases hq with (hq | rfl) | hq
    · exact Nat.lt_succ_of_lt (hr.fresh q (.inl hq))
    · exact Nat.lt_succ_self _
    · exact Nat.lt_succ_of_lt (hr.fresh q (.inr hq))
  have hanswered : ∀ q, .called q ∈ e₁.history → q = e.promises ∨ .resolved q ∈ e₁.history := by
    intro q hq
    rw [hhistory] at hq ⊢
    rcases List.mem_append.mp hq with hq | hq
    · exact .inr (List.mem_append_left _ (hr.answered q hq))
    · cases List.mem_singleton.mp hq
      exact .inl rfl
  -- the last turn is that a promise resolved, so no run is the last one
  have hlast : ∀ a k b, e₁.history = a ++ .started k :: b → (∀ y ∈ b, y.isTurn = false) →
      e₁.runCount + 1 = k + 1 ∧ ∃ q, .called q ∈ b := by
    intro a k b heq hquiet
    rw [hhistory] at heq
    rcases History.append_singleton_eq heq with ⟨-, hx, -⟩ | ⟨b', rfl, hh⟩
    · cases hx
    · rcases hr.last with hnil | ⟨h, q, hlast⟩
      · rw [hnil] at hh
        simp at hh
      · rw [hlast] at hh
        rcases History.append_singleton_eq hh with ⟨-, hx, -⟩ | ⟨b'', rfl, -⟩
        · cases hx
        · exact absurd (hquiet (.resolved q) (by simp)) (by simp [Event.isTurn])
  obtain ⟨past, now, hturn, hstands, hcount⟩ := turn_iterate (p := e.promises)
    (hhistory ▸ hr.ended.snoc (by simp)) (hhistory ▸ hr.sound.quiet rfl) hfresh hanswered
    ⟨by simp [hhistory], by simpa [hhistory] using hnew⟩ hlast
  refine ⟨(e₁.iterate stages).2, ?_⟩
  rw [Engine.trigger_of_idle hr.idle.running h₁]
  refine ⟨rfl, ?_, past, now, hturn.congr rfl rfl rfl rfl, ?_⟩
  · change (e₁.iterate stages).1.loops ++ _ = _
    rw [Engine.iterate_loops, hloops₁, List.nil_append]
  · change Stands stages (e₁.iterate stages).1.runCount now _
    rw [hcount]
    exact hstands

theorem inv_trigger (hi : Inv stages e) : Inv stages (e.trigger stages) := by
  rcases hi with hr | ⟨p, frame, hb⟩
  · exact .inr ⟨_, hr.trigger⟩
  · obtain ⟨past, now, hturn, hstands⟩ := hb.turn
    have htrigger : e.trigger stages = { e with pendingRerun := true }.emit (.called p) := by
      rw [Engine.trigger, hb.running]
    rw [htrigger]
    refine .inr ⟨p, frame, hb.running, hb.loops, past, _, hturn.call, ?_⟩
    -- a call is no event of the run
    have hsame : stagesOf e.runCount (now ++ [.called p]) = stagesOf e.runCount now := by
      rw [stagesOf_append]
      exact List.append_nil _
    cases frame with
    | stage k name rest =>
      obtain ⟨hk, hrest, hname⟩ := hstands
      refine ⟨hk, ?_, ?_⟩
      · exact (congrArg (· ++ rest) hsame).trans hrest
      · exact hsame ▸ hname
    | returned =>
      obtain ⟨inside, outcome, after, rfl, hrun⟩ := hstands
      exact ⟨inside, outcome, after ++ [.called p], by rw [List.append_assoc]; rfl, hrun⟩

theorem inv_settle {pre post : List (ℕ × Frame)} {run : ℕ} {name : JsString} {rest : List JsString} (hi : Inv stages e)
    (h : e.loops = pre ++ (p, .stage run name rest) :: post) (r : Settled) (ctx : Ctx) :
    Inv stages { (e.settle run name rest r ctx).1 with loops := pre ++ (p, (e.settle run name rest r ctx).2) :: post } := by
  rcases hi with hr | ⟨p', frame, hb⟩
  · simp [hr.idle.loops] at h
  obtain ⟨past, now, hturn, hstands⟩ := hb.turn
  obtain ⟨rfl, hx, rfl⟩ : pre = [] ∧ (p, Frame.stage run name rest) = (p', frame) ∧ post = [] := by
    have hloops := hb.loops
    rw [h] at hloops
    cases pre with
    | nil =>
      cases hloops
      simp
    | cons x pre => simp at hloops
  cases hx
  obtain ⟨rfl, hrest, hname⟩ := hstands
  refine .inr ⟨p, (e.settle e.runCount name rest r ctx).2, ?_⟩
  unfold Engine.settle
  split
  · rename_i error herror
    refine ⟨hb.running, rfl, past, _, (hturn.emit rfl (by simp)).congr rfl rfl rfl rfl, now, _, [], rfl, ⟨rest, hrest⟩, ?_⟩
    exact fun _ hnil => absurd (hnil ▸ hname) List.not_mem_nil
  · obtain ⟨now', hturn', hstands'⟩ := hturn.next hrest ctx
    refine ⟨(e.next_running ..).trans hb.running, rfl, past, now', hturn'.congr rfl rfl rfl rfl, ?_⟩
    change Stands stages (e.next e.runCount rest ctx).1.runCount now' _
    rw [e.next_runCount]
    exact hstands'

theorem inv_resume {pre post : List (ℕ × Frame)} (hi : Inv stages e) (h : e.loops = pre ++ (p, .returned) :: post) :
    Inv stages { (e.resume stages p).1 with
      loops := pre ++ ((e.resume stages p).2.map fun f => (p, f)).toList ++ post } := by
  rcases hi with hr | ⟨p', frame, hb⟩
  · simp [hr.idle.loops] at h
  obtain ⟨past, now, hturn, hstands⟩ := hb.turn
  obtain ⟨rfl, hx, rfl⟩ : pre = [] ∧ (p, Frame.returned) = (p', frame) ∧ post = [] := by
    have hloops := hb.loops
    rw [h] at hloops
    cases pre with
    | nil =>
      cases hloops
      simp
    | cons x pre => simp at hloops
  cases hx
  obtain ⟨inside, outcome, after, rfl, hrun, hsome⟩ := hstands
  have hended : AllEnded e.history := by
    rw [hturn.history]
    exact hturn.ended.turn hturn.quiet (o := outcome) (by simp)
  -- the last turn is the start of this run
  have hlast : ∀ a k b, e.history = a ++ .started k :: b → (∀ y ∈ b, y.isTurn = false) →
      past = a ∧ e.runCount = k ∧ inside ++ .ended e.runCount outcome :: after = b := by
    intro a k b heq hquiet
    rw [hturn.history] at heq
    obtain ⟨ha, hk, hb'⟩ := History.last_eq (P := fun y : Event => y.isTurn = true) rfl rfl
      (fun y hy => by simp [hturn.quiet y hy]) (fun y hy => by simp [hquiet y hy]) heq
    cases hk
    exact ⟨ha, rfl, hb'⟩
  by_cases hpending : e.pendingRerun = true
  · have hcalled := hturn.pending.mp hpending
    refine .inr ⟨p, (e.iterate stages).2, ?_⟩
    simp only [Engine.resume, hpending, if_true]
    have hanswered : ∀ q, .called q ∈ e.history → q = p ∨ .resolved q ∈ e.history := by
      intro q hq
      rw [hturn.history] at hq ⊢
      rcases List.mem_append.mp hq with hq | hq
      · exact (hturn.answered q hq).imp id fun h => List.mem_append_left _ h
      · exact .inl (hturn.own q ((List.mem_cons.mp hq).resolve_left (by simp)))
    obtain ⟨past', now', hturn', hstands', hcount⟩ := turn_iterate hended hturn.sound hturn.fresh hanswered hturn.open
      fun a k b heq hquiet => by
        obtain ⟨rfl, rfl, rfl⟩ := hlast a k b heq hquiet
        exact ⟨rfl, p, hcalled⟩
    refine ⟨?_, by simp, past', now', hturn'.congr rfl rfl rfl rfl, ?_⟩
    · unfold Engine.iterate
      exact (Engine.next_running ..).trans hb.running
    · change Stands stages (e.iterate stages).1.runCount now' _
      rw [hcount]
      exact hstands'
  · have hcalled : ∀ q, .called q ∉ inside ++ .ended e.runCount outcome :: after := by
      intro q hq
      cases hturn.own q hq
      exact hpending (hturn.pending.mpr hq)
    simp only [Engine.resume, hpending]
    refine .inl ⟨⟨rfl, by simp [Engine.emit], by simp⟩, hended.snoc (by simp), ?_, .inr ⟨_, _, rfl⟩,
      hturn.sound.resolve ?_ ?_, ?_⟩
    · intro q hq
      replace hq := (List.mem_append.mp hq).resolve_right (by simp)
      rw [hturn.history] at hq
      rcases List.mem_append.mp hq with hq | hq
      · rcases hturn.answered q hq with rfl | hres
        · exact List.mem_append_right _ (List.mem_singleton_self _)
        · exact List.mem_append_left _ (hturn.history ▸ List.mem_append_left _ hres)
      · exact absurd ((List.mem_cons.mp hq).resolve_left (by simp)) (hcalled q)
    · intro a b heq
      rw [hturn.history] at heq
      rcases History.cases_of_eq heq with ⟨b', -, rfl⟩ | ⟨-, hx, -⟩ | hmem
      · exact ⟨b', e.runCount, inside, outcome, after, by simp, hrun, hsome⟩
      · cases hx
      · exact absurd hmem (hcalled p)
    · intro a k b heq hquiet
      obtain ⟨rfl, rfl, rfl⟩ := hlast a k b heq hquiet
      exact hcalled
    · intro q hq
      rcases hq with hq | hq
      · exact hturn.fresh q (.inl ((List.mem_append.mp hq).resolve_right (by simp)))
      · rcases List.mem_append.mp hq with hq | hq
        · exact hturn.fresh q (.inr hq)
        · cases List.mem_singleton.mp hq
          exact hturn.fresh p (.inl hturn.open.1)

theorem inv_step {e' : Engine} (hi : Inv stages e) (h : Step stages e e') : Inv stages e' := by
  cases h with
  | trigger => exact inv_trigger hi
  | settle h r ctx => exact inv_settle hi h r ctx
  | resume h => exact inv_resume hi h

/-- The invariant holds of every reachable state. -/
theorem inv_of_reachable (h : Reachable stages e) : Inv stages e := by
  induction h with
  | refl => exact inv_init
  | tail _ hstep ih => exact inv_step ih hstep

/-- **Single flight, no lost trigger, coalescing, and rest.** For every list of stages, whatever they
come to and wherever `trigger` is called between two steps. -/
theorem Reachable.serves (h : Reachable stages e) : Serves stages e := by
  rcases inv_of_reachable h with hr | ⟨p, frame, hb⟩
  · refine ⟨hr.sound, fun _ => ⟨hr.idle, e.promises, e.runCount + 1, ?_⟩⟩
    have hhistory : ∃ more, (e.trigger stages).history = e.history ++ .called e.promises :: .started (e.runCount + 1) :: more := by
      simp only [Engine.trigger, hr.idle.running, Engine.iterate, Engine.next]
      split <;> simp [Engine.emit]
    obtain ⟨more, hmore⟩ := hhistory
    exact ⟨more, hmore, fun hq => (hr.fresh _ (.inl hq)).ne rfl⟩
  · obtain ⟨past, now, hturn, -⟩ := hb.turn
    exact ⟨hturn.sound, fun hall => absurd (hall p hturn.open.1) hturn.open.2⟩

end Invariant

/-- A call, a second one while the only stage runs, the end of that run and the start of the next. -/
theorem serves_second_call :
    ∃ e, Reachable [js "load"] e ∧ e.runCount = 2 ∧ Serves [js "load"] e := by
  have h : Reachable [js "load"] _ := ((((Relation.ReflTransGen.refl (a := ({} : Engine))).tail (.trigger _)).tail
    (.trigger _)).tail (.settle (show _ = [] ++ _ :: [] from rfl) (.result none) {})).tail
    (.resume (show _ = [] ++ _ :: [] from rfl))
  exact ⟨_, h, rfl, h.serves⟩

/-! ### The pipeline -/

section Pipeline

variable {env : Env} {stages : List JsString} {e : Engine} {p run : ℕ}

/-- What a stage of the pipeline comes to. -/
def settledOf : Except JsError StageResult → Settled
  | .ok r => .result r
  | .error e => .threw e.message

/-- One stage, and the rest if it succeeds. -/
theorem runStages_eq (env : Env) (stage : Stage) (rest : List Stage) (w : World) :
    runStages env (stage :: rest) w =
      match (settledOf (runStage env stage w).1).error stage.name with
      | some error => (.ok (some error), (runStage env stage w).2)
      | none => runStages env rest (runStage env stage w).2 := by
  rw [runStages, Act.bind_apply, Act.tryCatch]
  rcases runStage env stage w with ⟨r, w'⟩
  rcases r with error | (- | error) <;> rfl

/-- How a run ends, once its stages have. -/
def runEnd (lastError degraded : Option StageError) : M ReconcileOutcome :=
  match lastError, degraded with
  | some e, _ => return ⟨.error, some e⟩
  | none, some reason => return ⟨.degraded, some reason⟩
  | none, none => return ⟨.live, none⟩

theorem runOnce_eq (env : Env) (w : World) :
    ∃ r w', runStages env Orchestrator.stages { w with ctx := {} } = (.ok r, w') ∧
      (runOnce env w).1 = .ok (outcomeOf r w'.ctx.degraded) := by
  have htotal : ∀ ss w, ∃ r w', runStages env ss w = (.ok r, w') := by
    intro ss
    induction ss with
    | nil => exact fun w => ⟨none, w, rfl⟩
    | cons stage ss ih =>
      intro w
      rw [runStages_eq]
      split
      · exact ⟨_, _, rfl⟩
      · exact ih _
  obtain ⟨r, w', h⟩ := htotal Orchestrator.stages { w with ctx := {} }
  refine ⟨r, w', h, ?_⟩
  have hend : ∀ (lastError degraded : Option StageError) (w : World),
      (runEnd lastError degraded w).1 = .ok (outcomeOf lastError degraded) := by
    rintro (- | error) (- | reason) w <;> rfl
  have hrun : runOnce env w = (runStages env Orchestrator.stages >>= fun lastError => Act.get >>= fun w =>
      runEnd lastError w.ctx.degraded) { w with ctx := {} } := rfl
  rw [hrun, Act.bind_apply, h]
  exact hend r w'.ctx.degraded w'

/-- A stage that fails ends its run. -/
theorem reaches_error {name : JsString} {rest : List JsString} {r : Settled} {error : StageError}
    (h : e.loops = [(p, .stage run name rest)]) (herror : r.error name = some error) (ctx : Ctx) :
    ∃ e', Relation.ReflTransGen (Step stages) e e' ∧ e'.loops = [(p, .returned)] ∧
      ∃ more, e'.history = e.history ++ more ++ [.ended run (outcomeOf (some error) ctx.degraded)] := by
  have hstep : Step stages e _ := .settle (show e.loops = [] ++ (p, .stage run name rest) :: [] from h) r ctx
  rw [Engine.settle_some herror] at hstep
  exact ⟨_, .single hstep, rfl, [], by simp [Engine.emit]⟩

/-- The stages of a run settle one after the other, as those of the pipeline do. -/
theorem reaches_runStages (stage : Stage) (rest : List Stage) (w : World)
    (h : e.loops = [(p, .stage run stage.name (rest.map Stage.name))]) {r : StageResult} {w' : World}
    (hrun : runStages env (stage :: rest) w = (.ok r, w')) :
    ∃ e', Relation.ReflTransGen (Step stages) e e' ∧ e'.loops = [(p, .returned)] ∧
      ∃ more, e'.history = e.history ++ more ++ [.ended run (outcomeOf r w'.ctx.degraded)] := by
  induction rest generalizing stage w e with
  | nil =>
    rw [runStages_eq] at hrun
    cases herror : (settledOf (runStage env stage w).1).error stage.name with
    | some error =>
      rw [herror] at hrun
      cases hrun
      exact reaches_error h herror _
    | none =>
      have hstep : Step stages e _ := .settle (show e.loops = [] ++ _ :: [] from h) (settledOf (runStage env stage w).1)
        (runStage env stage w).2.ctx
      rw [Engine.settle_none herror] at hstep
      rw [herror] at hrun
      cases hrun
      exact ⟨_, .single hstep, rfl, [], by simp [Engine.emit, Engine.next]⟩
  | cons stage' rest ih =>
    rw [runStages_eq] at hrun
    cases herror : (settledOf (runStage env stage w).1).error stage.name with
    | some error =>
      rw [herror] at hrun
      cases hrun
      exact reaches_error h herror _
    | none =>
      have hstep : Step stages e _ := .settle (show e.loops = [] ++ _ :: [] from h) (settledOf (runStage env stage w).1)
        (runStage env stage w).2.ctx
      rw [Engine.settle_none herror] at hstep
      rw [herror] at hrun
      obtain ⟨e', hreach, hloops, more, hmore⟩ := ih stage' (runStage env stage w).2 (e := { (e.next run
        (stage'.name :: rest.map Stage.name) (runStage env stage w).2.ctx).1 with
          loops := [(p, .stage run stage'.name (rest.map Stage.name))] }) rfl hrun
      refine ⟨e', .head hstep hreach, hloops, .stage run stage'.name :: more, ?_⟩
      rw [hmore]
      simp [Engine.emit, Engine.next]

/-- **A run of the engine over the stages of `main.ts` can end as `runOnce` does**, from any world. -/
theorem run_of_runOnce (env : Env) (w : World) {o : ReconcileOutcome} (ho : (runOnce env w).1 = .ok o)
    (h : e.loops = [(p, .stage run Stage.load.name (Orchestrator.stages.tail.map Stage.name))]) :
    ∃ e', Relation.ReflTransGen (Step stages) e e' ∧ e'.loops = [(p, .returned)] ∧
      ∃ more, e'.history = e.history ++ more ++ [.ended run o] := by
  obtain ⟨r, w', hrun, hout⟩ := runOnce_eq env w
  rw [hout] at ho
  cases ho
  exact reaches_runStages .load _ _ h hrun

end Pipeline

end Reconciler

end Wanfw.Orchestrator
