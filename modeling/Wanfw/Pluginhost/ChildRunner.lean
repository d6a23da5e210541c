import Wanfw.Js.JsonParse
import Wanfw.Js.Regex
import Wanfw.Pluginhost.JsonRpc
import Wanfw.Pluginhost.Supervisor

/-!
# One child process

`pluginhost/src/child-runner.ts` with the connection it opens (`jsonrpc.ts`,
`ndjson.ts`): the child's stdout is cut into lines, each line is a message, and the
invocation's promise is settled by the first of an answer, a failed connection, the
timeout, the exit of the child and an error of the spawn. A turn of the event loop is
one `step`; the reactions to a settled call run at its end.

Nothing that settles the promise closes the connection or takes `host.call` from its
methods. `silent_iff`: a finished invocation forwards nothing exactly when the child
writes no further host call.
-/

namespace Wanfw.Pluginhost

open Wanfw.Js Wanfw.Orchestrator

/-- `InvocationResult`, but for the id of the invocation: the result, or code and message of the error. -/
abbrev InvocationResult := Except (JsString × JsString) Value

/-- What happens to the child and its streams. -/
inductive ChildEvent where
  | stdout (chunk : JsString)
  | stdoutEnd
  | stdoutError
  | stdinError
  | stderr (chunk : JsString)
  /-- The wall-clock timer fires. -/
  | timeout
  | exit (code : Option ℕ)
  /-- The `error` event of the child. -/
  | error (message : JsString)
  /-- A call that was forwarded for a notification is rejected. -/
  | notificationRejected

/-- A running invocation. -/
structure Runner where
  /-- `buffer` of the line reader. -/
  buffer : JsString := []
  /-- The task's call is in `pending`. -/
  pending : Bool := true
  /-- How the task's call was settled in this turn. -/
  outcome : Option (Except JsString Value) := none
  stderrTail : JsString := []
  /-- The signals that were sent to the child. -/
  signals : List JsString := []
  /-- `settled`, with what the promise was resolved with. -/
  settled : Option InvocationResult := none
  /-- A rejection that nothing handles has ended the process. -/
  crashed : Bool := false
  /-- The calls of `hostApiHandler`. -/
  forwarded : List (Obj Json) := []
  /-- How many of them were made for a notification. -/
  notified : ℕ := 0

section Runner

variable (N : Numerals) (job : InvocationJob) (callId : JsString) (wallMs : Decimal)

/-- `withStderrTail`. -/
def Runner.withStderrTail (r : Runner) (message : JsString) : JsString :=
  if r.stderrTail.isEmpty then message else message ++ js ": " ++ trim r.stderrTail

/-- `resolve(…)`, unless the promise is settled. -/
def Runner.settle (r : Runner) (result : InvocationResult) (signals : List JsString) : Runner :=
  if r.settled.isSome then r else { r with settled := some result, signals := r.signals ++ signals }

/-- `handleClose`. That the connection is closed is noted for later calls only. -/
def Runner.handleClose (r : Runner) : Runner :=
  if r.pending then { r with pending := false, outcome := some (.error (js "connection closed")) } else r

/-- The answer to the task's call. -/
def Runner.handleAnswer (r : Runner) (msg : Obj Json) : Runner :=
  if Value.strictEq (Obj.get msg (js "id")) (.str callId) ∧ r.pending = true then
    if js "error" ∈ Obj.keys msg then
      match (Value.destructure (js "msg.error") (js "message") (Obj.get msg (js "error"))).bind errorText with
      | .ok message => { r with pending := false, outcome := some (.error message) }
      | .error _ => { r with pending := false, crashed := true }
    else { r with pending := false, outcome := some (.ok (Obj.get msg (js "result"))) }
  else r

/-- A message with a method. Requests and notifications reach the handler of `host.call` alike; a request for another
method is answered with its name, if that can be turned into text. -/
def Runner.handleMethod (r : Runner) (method : Json) (msg : Obj Json) : Runner :=
  let isRequest := decide (js "id" ∈ Obj.keys msg)
  if method.strictEq (.str (js "host.call")) then
    { r with
      forwarded := r.forwarded ++ [forward job (Obj.get msg (js "params"))]
      notified := if isRequest then r.notified else r.notified + 1 }
  else
    match Value.toText (some method) with
    | .ok _ => r
    | .error _ => { r with crashed := r.crashed || isRequest }

/-- `handleMessage`, with `host.call` as the only method. What is written back to the child is left out. -/
def Runner.handleMessage (r : Runner) : Json → Runner
  | .obj msg =>
    match Obj.get msg (js "method") with
    | some method => r.handleMethod job method msg
    | none => r.handleAnswer callId msg
  | .arr _ => r
  -- `in` throws for a value that is no object, and nobody handles the rejection
  | _ => { r with crashed := true }

/-- A complete line. -/
def Runner.handleLine (r : Runner) (line : JsString) : Runner :=
  if (trim line).isEmpty then r
  else
    match parse N line with
    | some msg => r.handleMessage job callId msg
    | none => r.handleClose

/-- The complete lines once the chunk has arrived. -/
def Runner.lines (r : Runner) (chunk : JsString) : List JsString := (split (r.buffer ++ chunk) 10).dropLast

/-- `onData`. -/
def Runner.onData (r : Runner) (chunk : JsString) : Runner :=
  (r.lines chunk).foldl (Runner.handleLine N job callId)
    { r with buffer := (split (r.buffer ++ chunk) 10).getLastD [] }

/-- The reactions to the task's call, once it is settled. -/
def Runner.endTurn (r : Runner) : Runner :=
  match r.outcome with
  | none => r
  | some (.ok result) => { r.settle (.ok result) [js "SIGTERM"] with outcome := none }
  | some (.error message) =>
    { r.settle (.error (js "invoke_error", r.withStderrTail message)) [js "SIGTERM"] with outcome := none }

/-- What an event does. -/
def Runner.onEvent (r : Runner) : ChildEvent → Runner
  | .stdout chunk => r.onData N job callId chunk
  | .stdoutEnd | .stdoutError | .stdinError => r.handleClose
  | .stderr chunk =>
    let text := r.stderrTail ++ chunk
    { r with stderrTail := text.drop (text.length - 4096) }
  | .timeout =>
    r.settle (.error (js "timeout", r.withStderrTail (js "invocation exceeded wallMs=" ++ numberToString wallMs)))
      [js "SIGKILL"]
  | .exit code =>
    r.settle (.error (js "nonzero_exit",
      r.withStderrTail (js "child exited with code " ++ ((code.map natToString).getD (js "null"))))) []
  | .error message => r.settle (.error (js "spawn_error", message)) []
  -- the promise of a notification's handler was dropped
  | .notificationRejected => if r.notified = 0 then r else { r with crashed := true }

/-- One turn of the event loop, while the process is there. -/
def Runner.step (r : Runner) (e : ChildEvent) : Runner :=
  if r.crashed then r else (r.onEvent N job callId wallMs e).endTurn

/-- `runInvocation`, after the check of the bundle's hash: the events, one after the other. -/
def runInvocation (events : List ChildEvent) : Runner := events.foldl (Runner.step N job callId wallMs) {}

/-! ### What is forwarded -/

/-- The parameters of a line that is a call of the host. -/
def hostCallOf (line : JsString) : Option Value :=
  if (trim line).isEmpty then none
  else
    match parse N line with
    | some (.obj msg) =>
      if Value.strictEq (Obj.get msg (js "method")) (.str (js "host.call")) then some (Obj.get msg (js "params")) else none
    | _ => none

/-- In this turn a call of the host arrives. -/
def CallsHost (r : Runner) : ChildEvent → Prop
  | .stdout chunk => r.crashed = false ∧ ∃ line ∈ r.lines chunk, (hostCallOf N line).isSome
  | _ => False

variable {N job callId wallMs} {r : Runner}

@[simp] theorem forwarded_settle (result : InvocationResult) (signals : List JsString) :
    (r.settle result signals).forwarded = r.forwarded := by
  unfold Runner.settle
  split <;> rfl

@[simp] theorem forwarded_handleClose : r.handleClose.forwarded = r.forwarded := by
  unfold Runner.handleClose
  split <;> rfl

@[simp] theorem forwarded_handleAnswer (msg : Obj Json) : (r.handleAnswer callId msg).forwarded = r.forwarded := by
  unfold Runner.handleAnswer
  split
  · split
    · split <;> rfl
    · rfl
  · rfl

@[simp] theorem forwarded_endTurn : r.endTurn.forwarded = r.forwarded := by
  unfold Runner.endTurn
  split <;> simp

theorem forwarded_handleLine (line : JsString) :
    (r.handleLine N job callId line).forwarded =
      r.forwarded ++ ((hostCallOf N line).map (forward job)).toList := by
  unfold Runner.handleLine hostCallOf
  split
  · simp
  · cases parse N line with
    | none => simp
    | some msg =>
      cases msg with
      | obj msg =>
        simp only [Runner.handleMessage]
        cases Obj.get msg (js "method") with
        | none => simp [Value.strictEq]
        | some method =>
          unfold Runner.handleMethod
          cases hcall : method.strictEq (.str (js "host.call")) with
          | true => simp [Value.strictEq, hcall]
          | false => cases htext : Value.toText (some method) <;> simp [Value.strictEq, hcall, htext]
      | _ => simp [Runner.handleMessage]

theorem forwarded_foldl (lines : List JsString) (r : Runner) :
    (lines.foldl (Runner.handleLine N job callId) r).forwarded =
      r.forwarded ++ (lines.filterMap (hostCallOf N)).map (forward job) := by
  induction lines generalizing r with
  | nil => simp
  | cons line lines ih =>
    rw [List.foldl_cons, ih, forwarded_handleLine, List.append_assoc]
    cases h : hostCallOf N line <;> simp [h]

/-- A turn forwards the calls of its lines, whether the invocation is finished or not. -/
theorem forwarded_step (e : ChildEvent) :
    (r.step N job callId wallMs e).forwarded = r.forwarded ↔ ¬ CallsHost N r e := by
  unfold Runner.step
  cases hcrashed : r.crashed with
  | true =>
    cases e <;> simp [CallsHost, hcrashed]
  | false =>
    cases e with
    | stdout chunk =>
      simp only [Bool.false_eq_true, if_false, forwarded_endTurn, Runner.onEvent, Runner.onData, forwarded_foldl,
        List.append_right_eq_self, List.map_eq_nil_iff, List.filterMap_eq_nil_iff, CallsHost, hcrashed, true_and, not_exists,
        not_and, Option.not_isSome_iff_eq_none]
    | notificationRejected =>
      by_cases hnone : r.notified = 0 <;> simp [Runner.onEvent, CallsHost, hnone]
    | _ => simp [Runner.onEvent, CallsHost]

/-- Whenever an event arrives after the invocation's promise was settled, it does not do `P`. -/
def NeverOnceSettled (N : Numerals) (job : InvocationJob) (callId : JsString) (wallMs : Decimal) (events : List ChildEvent)
    (P : Runner → ChildEvent → Prop) : Prop :=
  ∀ before e after, events = before ++ e :: after → (runInvocation N job callId wallMs before).settled.isSome →
    ¬ P (runInvocation N job callId wallMs before) e

/-- The event makes the runner forward a call to the orchestrator. -/
def Forwards (N : Numerals) (job : InvocationJob) (callId : JsString) (wallMs : Decimal) (r : Runner) (e : ChildEvent) : Prop :=
  (r.step N job callId wallMs e).forwarded ≠ r.forwarded

/-- **When a finished invocation is silent.** For every behaviour of the child, however the invocation
was settled: exactly when no call of the host arrives on its stdout afterwards. -/
theorem silent_iff (events : List ChildEvent) :
    NeverOnceSettled N job callId wallMs events (Forwards N job callId wallMs) ↔
      NeverOnceSettled N job callId wallMs events (CallsHost N) := by
  unfold NeverOnceSettled Forwards
  simp only [ne_eq, forwarded_step, not_not]

end Runner

/-! ### A call after the result -/

/-- A line of stdout. -/
def line (msg : Obj Json) : ChildEvent := .stdout (stringify (.obj msg) ++ js "\n")

/-- The child answers, ignores the signal and asks for a value. -/
def lateChild : List ChildEvent :=
  [line [(js "id", .str (js "call-1")), (js "result", .bool true)],
    line [(js "method", .str (js "host.call")), (js "params", .obj [(js "method", .str (js "state.get"))])]]

/-- The call is forwarded although the invocation was answered before. -/
theorem not_silent_lateChild :
    ¬ NeverOnceSettled Numerals.exact ⟨js "1", js "echo"⟩ (js "call-1") (Decimal.ofNat 5000) lateChild
      (Forwards Numerals.exact ⟨js "1", js "echo"⟩ (js "call-1") (Decimal.ofNat 5000)) := by
  intro h
  refine h _ _ _ (show lateChild = [_] ++ _ :: [] from rfl) (by decide +kernel) fun heq => ?_
  have hlength := congrArg List.length heq
  revert hlength
  decide +kernel

end Wanfw.Pluginhost
