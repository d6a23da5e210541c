import Wanfw.Js.JsonText
import Wanfw.Js.Regex
import Wanfw.Js.Utf8
import Wanfw.Js.Values
import Wanfw.Store.History
import Wanfw.Store.Table

/-!
# A JSON-RPC connection

`ndjson.ts` and `jsonrpc.ts`: the bytes that arrive are decoded and cut into lines, each line is a
message, and a message is a request, a notification or the response to a call. `handleMessage`
is an `async` function whose promise nobody waits for, and the promise of a notification's
handler is dropped: what either rejects with is a rejection that nobody handles, and the
process ends.

`unhandled_onMessage_iff` says which messages do that, and `crash_free_iff` which runs are without.
-/

namespace Wanfw.Pluginhost

open Wanfw.Js Wanfw.Store

/-! ### What a connection keeps -/

/-- What a handler's promise rejects with: nothing that has properties, or something with a `message`. -/
inductive Rejection where
  | nullish
  | error (message : Value)

/-- How a handler's promise settles. -/
inductive HandlerResult where
  | resolves (value : Value)
  | rejects (reason : Rejection)

/-- How the promise of a call settles. -/
inductive CallOutcome where
  | resolved (value : Value)
  /-- `new Error(msg.error.message)`. -/
  | peerError (message : JsString)
  /-- `new Error("connection closed")`. -/
  | connectionClosed

/-- A call that was made. -/
structure OutgoingCall where
  /-- The id of its request, unless the connection was closed. -/
  id : Option JsString
  method : JsString
  params : Value
  /-- Every time that its promise was resolved or rejected. -/
  settlements : List CallOutcome

/-- A handler that was invoked, for a request or for a notification. -/
structure Invocation where
  id : Option Json
  method : JsString
  params : Value
  result : Option HandlerResult

/-- A request that no method was found for, with the methods at that moment. -/
structure Refusal where
  id : Json
  method : Value
  methods : List JsString

/-- `JsonRpcConnection`, with its `NdjsonReader`. -/
structure Connection where
  /-- The decoder of the stream. -/
  decoder : Utf8State := .start
  buffer : JsString := []
  /-- The names in `methods`. -/
  methods : List JsString := []
  /-- The ids in `pending`, with the number of the call. -/
  pending : List (JsString × ℕ) := []
  closed : Bool := false
  calls : List OutgoingCall := []
  invocations : List Invocation := []
  refusals : List Refusal := []
  /-- The bytes that were written and that the other side has not read yet. -/
  written : List UInt8 := []
  /-- The rejections that nobody handles. -/
  unhandled : List JsError := []

/-! ### Messages -/

/-- `"k" in v`. -/
def hasProp (k : JsString) : Json → Except JsError Bool
  | .obj o => .ok (decide (k ∈ Obj.keys o))
  | .arr _ => .ok false
  | .null => .error (.typeError (js "Cannot use 'in' operator to search for '" ++ k ++ js "' in null"))
  | .bool b =>
    .error (.typeError (js "Cannot use 'in' operator to search for '" ++ k ++ js "' in " ++ if b then js "true" else js "false"))
  | .num d => .error (.typeError (js "Cannot use 'in' operator to search for '" ++ k ++ js "' in " ++ numberToString d))
  | .str s => .error (.typeError (js "Cannot use 'in' operator to search for '" ++ k ++ js "' in " ++ s))

/-- `v.k`. -/
def readProp (k : JsString) : Value → Except JsError Value
  | none => .error (.typeError (js "Cannot read properties of undefined (reading '" ++ k ++ js "')"))
  | some .null => .error (.typeError (js "Cannot read properties of null (reading '" ++ k ++ js "')"))
  | some v => .ok (v.prop k)

/-- `new Error(v)`: its message. -/
def errorText : Value → Except JsError JsString
  | none => .ok []
  | some v => Value.toText (some v)

/-- `err.message`, for what a handler rejects with. -/
def Rejection.message : Rejection → Except JsError Value
  | .nullish => .error (.typeError (js "Cannot read properties of null (reading 'message')"))
  | .error message => .ok message

/-- A `JsonRpcRequest`. -/
def requestMessage (id method : JsString) (params : Value) : Obj Json := Value.object
  [(js "jsonrpc", some (.str (js "2.0"))), (js "id", some (.str id)), (js "method", some (.str method)), (js "params", params)]

/-- A `JsonRpcNotification`. -/
def notificationMessage (method : JsString) (params : Value) : Obj Json := Value.object
  [(js "jsonrpc", some (.str (js "2.0"))), (js "method", some (.str method)), (js "params", params)]

/-- A `JsonRpcSuccess`. -/
def successMessage (id : Json) (result : Value) : Obj Json := Value.object
  [(js "jsonrpc", some (.str (js "2.0"))), (js "id", some id), (js "result", result)]

/-- A `JsonRpcError`. -/
def errorMessage (id : Json) (code : ℕ) (message : Value) : Obj Json := Value.object
  [(js "jsonrpc", some (.str (js "2.0"))), (js "id", some id),
    (js "error", some (.obj (Value.object [(js "code", some (.num (Decimal.ofParts true code 0))), (js "message", message)])))]

/-- The message for a method that was not found. -/
def methodNotFound (method : JsString) : JsString := js "method not found: " ++ method

namespace Connection

/-- `writeNdjson`. -/
def writeNdjson (msg : Obj Json) (c : Connection) : Connection :=
  { c with written := c.written ++ utf8 (stringify (.obj msg) ++ js "\n") }

/-- `methods.get(method)`. -/
def findMethod (c : Connection) (method : Value) : Option JsString := c.methods.find? fun m => Value.strictEq method (.str m)

/-- Resolve or reject the promise of a call. -/
def settle (n : ℕ) (outcome : CallOutcome) (c : Connection) : Connection :=
  { c with calls := c.calls.modify n fun call => { call with settlements := call.settlements ++ [outcome] } }

/-- `registerMethod`. -/
def registerMethod (name : JsString) (c : Connection) : Connection :=
  if name ∈ c.methods then c else { c with methods := c.methods ++ [name] }

/-- `call`, with the id that is drawn for it. -/
def call (id method : JsString) (params : Value) (c : Connection) : Connection :=
  if c.closed then { c with calls := c.calls ++ [⟨none, method, params, [.connectionClosed]⟩] }
  else
    writeNdjson (requestMessage id method params) { c with
      calls := c.calls ++ [⟨some id, method, params, []⟩]
      pending := Table.upsertRows Prod.fst c.pending (id, c.calls.length) }

/-- `notify`. -/
def notify (method : JsString) (params : Value) (c : Connection) : Connection :=
  writeNdjson (notificationMessage method params) c

/-- `handleClose`. -/
def handleClose (c : Connection) : Connection :=
  { c.pending.foldl (fun c entry => settle entry.2 .connectionClosed c) c with closed := true, pending := [] }

/-- The request of a message. -/
def handleRequest (id : Json) (method params : Value) : Act Connection Unit := fun c =>
  match c.findMethod method with
  | some name => (.ok (), { c with invocations := c.invocations ++ [⟨some id, name, params, none⟩] })
  | none =>
    let c := { c with refusals := c.refusals ++ [⟨id, method, c.methods⟩] }
    match Value.toText method with
    | .ok text => (.ok (), writeNdjson (errorMessage id 32601 (some (.str (methodNotFound text)))) c)
    | .error e => (.error e, c)

/-- The notification of a message. -/
def handleNotification (method params : Value) (c : Connection) : Connection :=
  match c.findMethod method with
  | none => c
  | some name => { c with invocations := c.invocations ++ [⟨none, name, params, none⟩] }

/-- The call that waits under an id. -/
def findPending (c : Connection) : Value → Option (JsString × ℕ)
  | some (.str id) => c.pending.find? fun entry => entry.1 = id
  | _ => none

/-- How a response settles the call that it is for. -/
def responseOutcome (msg : Json) : Except JsError CallOutcome := do
  if ← hasProp (js "error") msg then
    let message ← readProp (js "message") (msg.prop (js "error"))
    let text ← errorText message
    return .peerError text
  else return .resolved (msg.prop (js "result"))

/-- The response of a message. -/
def handleResponse (msg : Json) : Act Connection Unit := fun c =>
  match c.findPending (msg.prop (js "id")) with
  | none => (.ok (), c)
  | some (id, n) =>
    let c := { c with pending := c.pending.filter fun entry => entry.1 ≠ id }
    match responseOutcome msg with
    | .ok outcome => (.ok (), settle n outcome c)
    | .error e => (.error e, c)

/-- `handleMessage`, up to its first `await`. -/
def handleMessage (msg : Json) : Act Connection Unit := do
  if ← Act.ofExcept (hasProp (js "method") msg) then
    if ← Act.ofExcept (hasProp (js "id") msg) then
      handleRequest ((msg.prop (js "id")).getD .null) (msg.prop (js "method")) (msg.prop (js "params"))
    else Act.modify (handleNotification (msg.prop (js "method")) (msg.prop (js "params")))
  else handleResponse msg

/-- A promise that nobody waits for. -/
def unawaited (m : Act Connection Unit) (c : Connection) : Connection :=
  match m c with
  | (.ok _, c) => c
  | (.error e, c) => { c with unhandled := c.unhandled ++ [e] }

/-- The listener for messages. -/
def onMessage (msg : Json) : Connection → Connection := unawaited (handleMessage msg)

/-- The rest of `handleMessage` for a request, once its handler has settled. -/
def finishRequest (id : Json) : HandlerResult → Act Connection Unit
  | .resolves value => Act.modify (writeNdjson (successMessage id value))
  | .rejects reason => do
    let message ← Act.ofExcept reason.message
    Act.modify (writeNdjson (errorMessage id 32000 message))

/-- The promise of a notification's handler is dropped, and its rejection with it. -/
def finishNotification : HandlerResult → Act Connection Unit
  | .resolves _ => return ()
  | .rejects _ => Act.throw (.error (js "unhandled rejection"))

/-- The promise of the handler of a number settles. It does so once. -/
def onSettled (k : ℕ) (result : HandlerResult) (c : Connection) : Connection :=
  match c.invocations[k]? with
  | none => c
  | some invocation =>
    if invocation.result.isSome then c
    else
      unawaited (match invocation.id with
        | some id => finishRequest id result
        | none => finishNotification result)
        { c with invocations := c.invocations.set k { invocation with result := some result } }

section Lines

variable (N : Numerals)

/-- A complete line. -/
def handleLine (line : JsString) (c : Connection) : Connection :=
  if trim line = [] then c
  else
    match parse N line with
    | some msg => onMessage msg c
    | none => handleClose c

/-- A turn of the loop in `onData`: the next complete line is taken out of the buffer. -/
def nextLine (c : Connection) : Option (JsString × Connection) :=
  (cut (js "\n") c.buffer).map fun q => (q.1, { c with buffer := q.2 })

/-- The loop in `onData`. -/
def drain : ℕ → Connection → Connection
  | 0, c => c
  | fuel + 1, c =>
    match nextLine c with
    | none => c
    | some (line, c) => drain fuel (handleLine N line c)

/-- A chunk of bytes goes through the decoder into the buffer. -/
def receive (bytes : List UInt8) (c : Connection) : Connection :=
  { c with decoder := (c.decoder.feedAll bytes).1, buffer := c.buffer ++ (c.decoder.feedAll bytes).2 }

/-- `onData`, for a chunk of bytes. -/
def onData (bytes : List UInt8) (c : Connection) : Connection := drain N (receive bytes c).buffer.length (receive bytes c)

/-- The end of the stream: what the decoder still has is replaced. -/
def onEnd (c : Connection) : Connection :=
  let c := { c with decoder := .start, buffer := c.buffer ++ c.decoder.finish }
  handleClose (drain N c.buffer.length c)

end Lines

/-- What happens to a connection. -/
inductive Event where
  | data (bytes : List UInt8)
  | streamEnd
  /-- The `error` event of either stream. -/
  | streamError
  | close
  | registerMethod (name : JsString)
  | call (id method : JsString) (params : Value)
  | notify (method : JsString) (params : Value)
  | settled (k : ℕ) (result : HandlerResult)

/-- What an event does. -/
def onEvent (N : Numerals) : Event → Connection → Connection
  | .data bytes => onData N bytes
  | .streamEnd => onEnd N
  | .streamError | .close => handleClose
  | .registerMethod name => registerMethod name
  | .call id method params => call id method params
  | .notify method params => notify method params
  | .settled k result => onSettled k result

/-- A connection after some events. -/
def run (N : Numerals) (events : List Event) : Connection := events.foldl (fun c e => onEvent N e c) {}

/-! ### Which messages are too much -/

/-- A value that cannot be turned into text. -/
def Unprintable (v : Value) : Prop := ∃ e, Value.toText v = .error e

/-- The messages that `handleMessage` rejects for: a value that has no properties, a request for a method that is neither
registered nor printable, and a response that settles a call with an error that is `null` or whose message is not
printable. -/
def Rejects (c : Connection) : Json → Prop
  | .obj o =>
    if js "method" ∈ Obj.keys o then
      js "id" ∈ Obj.keys o ∧ c.findMethod (Obj.get o (js "method")) = none ∧ Unprintable (Obj.get o (js "method"))
    else
      (c.findPending (Obj.get o (js "id"))).isSome ∧ ∃ error, Obj.get o (js "error") = some error ∧
        (error = .null ∨ ∃ message, error.prop (js "message") = some message ∧ Unprintable (some message))
  | .arr _ => False
  | _ => True

/-- The line is a message that is rejected for. -/
def LineRejects (N : Numerals) (c : Connection) (line : JsString) : Prop :=
  trim line ≠ [] ∧ ∃ msg, parse N line = some msg ∧ c.Rejects msg

/-- The loop in `onData` comes to a line, with the connection that the lines before it leave. -/
inductive Handles (N : Numerals) : Connection → Connection → JsString → Prop
  | here {c c' : Connection} {line : JsString} (h : c.nextLine = some (line, c')) : Handles N c c' line
  | later {c c' c'' : Connection} {line line' : JsString} (h : c.nextLine = some (line, c'))
      (hrest : Handles N (handleLine N line c') c'' line') : Handles N c c'' line'

/-- The result of the handler of a number is too much: a request's handler rejects with `null`, or a notification's handler
rejects. -/
def ResultRejects (c : Connection) (k : ℕ) (result : HandlerResult) : Prop :=
  ∃ invocation, c.invocations[k]? = some invocation ∧ invocation.result = none ∧
    (invocation.id.isSome = true ∧ result = .rejects .nullish ∨ invocation.id = none ∧ ∃ reason, result = .rejects reason)

/-! ### What is done with a message -/

section Messages

variable {c : Connection}

theorem handleMessage_obj (o : Obj Json) : handleMessage (.obj o) =
    if js "method" ∈ Obj.keys o then
      if js "id" ∈ Obj.keys o then
        handleRequest ((Obj.get o (js "id")).getD .null) (Obj.get o (js "method")) (Obj.get o (js "params"))
      else Act.modify (handleNotification (Obj.get o (js "method")) (Obj.get o (js "params")))
    else handleResponse (.obj o) := by
  simp only [handleMessage, hasProp, Act.ofExcept_ok_bind, decide_eq_true_eq, Json.prop]

theorem handleMessage_arr (xs : List Json) : handleMessage (.arr xs) c = (.ok (), c) := rfl

/-- Settling calls, as the loop of `handleClose` does. -/
theorem handleClose_eq (c : Connection) : handleClose c = { c with
    calls := (c.pending.foldl (fun c entry => settle entry.2 .connectionClosed c) c).calls
    closed := true
    pending := [] } := by
  have hloop : ∀ (entries : List (JsString × ℕ)) (c : Connection),
      entries.foldl (fun c entry => settle entry.2 .connectionClosed c) c =
        { c with calls := (entries.foldl (fun c entry => settle entry.2 .connectionClosed c) c).calls } := by
    intro entries
    induction entries with
    | nil => exact fun _ => rfl
    | cons entry entries ih =>
      intro c
      rw [List.foldl_cons, ih]
      rfl
  rw [handleClose, hloop]

/-- A message changes neither the buffer nor, while it is handled, the rejections. -/
theorem handleMessage_frame (msg : Json) :
    (handleMessage msg c).2.buffer = c.buffer ∧ (handleMessage msg c).2.unhandled = c.unhandled := by
  have hrequest : ∀ (id : Json) (method params : Value), (handleRequest id method params c).2.buffer = c.buffer ∧
      (handleRequest id method params c).2.unhandled = c.unhandled := by
    intro id method params
    rw [handleRequest]
    cases c.findMethod method with
    | some name => exact ⟨rfl, rfl⟩
    | none => cases Value.toText method <;> exact ⟨rfl, rfl⟩
  have hnotification : ∀ method params : Value, (handleNotification method params c).buffer = c.buffer ∧
      (handleNotification method params c).unhandled = c.unhandled := by
    intro method params
    rw [handleNotification]
    cases c.findMethod method <;> exact ⟨rfl, rfl⟩
  have hresponse : ∀ msg, (handleResponse msg c).2.buffer = c.buffer ∧ (handleResponse msg c).2.unhandled = c.unhandled := by
    intro msg
    rw [handleResponse]
    cases c.findPending (msg.prop (js "id")) with
    | none => exact ⟨rfl, rfl⟩
    | some entry => cases responseOutcome msg <;> exact ⟨rfl, rfl⟩
  cases msg with
  | obj o =>
    rw [handleMessage_obj]
    split
    · split
      · exact hrequest _ _ _
      · exact hnotification _ _
    · exact hresponse _
  | _ => exact ⟨rfl, rfl⟩

theorem responseOutcome_error_iff (o : Obj Json) : (∃ e, responseOutcome (.obj o) = .error e) ↔
    ∃ error, Obj.get o (js "error") = some error ∧
      (error = .null ∨ ∃ message, error.prop (js "message") = some message ∧ Unprintable (some message)) := by
  have hmember := Obj.mem_keys_iff_get (o := o) (k := js "error")
  rw [responseOutcome, hasProp]
  cases hget : Obj.get o (js "error") with
  | none =>
    have habsent : js "error" ∉ Obj.keys o := fun h => by simp [hget] at hmember; exact hmember h
    simp [habsent, bind, Except.bind, pure, Except.pure]
  | some error =>
    have hpresent : js "error" ∈ Obj.keys o := hmember.mpr ⟨error, hget⟩
    have hprop : (Json.obj o).prop (js "error") = some error := hget
    simp only [hpresent, decide_true, bind, Except.bind, if_true, hprop, Option.some.injEq, exists_eq_left']
    by_cases hnull : error = .null
    · subst hnull
      simp [readProp]
    · have hread : readProp (js "message") (some error) = .ok (error.prop (js "message")) := by
        cases error <;> first | rfl | exact absurd rfl hnull
      rw [hread, or_iff_right hnull]
      cases hmessage : error.prop (js "message") with
      | none => simp [errorText, pure, Except.pure]
      | some message => cases htext : Value.toText (some message) <;> simp [errorText, Unprintable, htext, pure, Except.pure]

theorem handleMessage_error_iff (msg : Json) : (∃ e, (handleMessage msg c).1 = .error e) ↔ c.Rejects msg := by
  cases msg with
  | obj o =>
    rw [handleMessage_obj, Rejects]
    split
    · split
      · rename_i hid
        rw [and_iff_right hid, handleRequest]
        cases c.findMethod (Obj.get o (js "method")) with
        | some name => simp
        | none => cases h : Value.toText (Obj.get o (js "method")) <;> simp [Unprintable, h]
      · rename_i hid
        simp [hid, Act.modify]
    · rw [← responseOutcome_error_iff, handleResponse, Json.prop]
      cases c.findPending (Obj.get o (js "id")) with
      | none => simp
      | some entry => cases responseOutcome (.obj o) <;> simp
  | arr xs => simp [handleMessage_arr, Rejects]
  | _ => exact iff_of_true ⟨_, rfl⟩ trivial

/-- A promise that nobody waits for leaves no rejection behind when it is fulfilled. -/
theorem unhandled_unawaited_iff {m : Act Connection Unit} (hframe : (m c).2.unhandled = c.unhandled) :
    (unawaited m c).unhandled = [] ↔ c.unhandled = [] ∧ ¬ ∃ e, (m c).1 = .error e := by
  rw [unawaited, ← hframe]
  rcases m c with ⟨r, c'⟩
  cases r <;> simp

theorem unhandled_handleClose : (handleClose c).unhandled = c.unhandled := by rw [handleClose_eq]

section Lines

variable {N : Numerals}

theorem handleLine_frame (line : JsString) : (handleLine N line c).buffer = c.buffer ∧
    ((handleLine N line c).unhandled = [] ↔ c.unhandled = [] ∧ ¬ LineRejects N c line) := by
  rw [handleLine]
  split
  · rename_i hblank
    exact ⟨rfl, by simp [LineRejects, hblank]⟩
  · rename_i hline
    cases hparse : parse N line with
    | none => exact ⟨by rw [handleClose_eq], by simp [unhandled_handleClose, LineRejects, hparse]⟩
    | some msg =>
      obtain ⟨hbuffer, hunhandled⟩ := handleMessage_frame (c := c) msg
      constructor
      · dsimp only
        rw [onMessage, unawaited]
        rcases hrun : handleMessage msg c with ⟨r, c'⟩
        rw [hrun] at hbuffer
        cases r <;> exact hbuffer
      · refine (unhandled_unawaited_iff hunhandled).trans ?_
        rw [handleMessage_error_iff, LineRejects, hparse]
        simp [hline]

theorem nextLine_eq_none_iff : c.nextLine = none ↔ (10 : UInt16) ∉ c.buffer := by
  rw [nextLine, Option.map_eq_none_iff]
  constructor
  · intro hnone hmem
    obtain ⟨x, y, hsplit⟩ := List.append_of_mem hmem
    obtain ⟨x', z, hcut⟩ := cut_of_append (t := js "\n") (x := x) (y := y)
    rw [hsplit, show x ++ 10 :: y = x ++ js "\n" ++ y by rw [List.append_assoc]; rfl, hcut] at hnone
    cases hnone
  · intro hmem
    by_contra hne
    obtain ⟨⟨x, y⟩, hcut⟩ := Option.ne_none_iff_exists'.mp hne
    rw [eq_append_of_cut hcut] at hmem
    exact hmem (List.mem_append_left _ (List.mem_append_right _ (by decide)))

/-- A line that is taken out, with its end. -/
theorem eq_of_nextLine {line : JsString} {c' : Connection} (h : c.nextLine = some (line, c')) :
    ∃ rest, c.buffer = line ++ 10 :: rest ∧ (10 : UInt16) ∉ line ∧ c' = { c with buffer := rest } := by
  obtain ⟨⟨x, y⟩, hcut, heq⟩ := Option.map_eq_some_iff.mp h
  obtain ⟨rfl, rfl⟩ := Prod.mk.inj heq
  refine ⟨y, ?_, not_mem_of_cut hcut, rfl⟩
  rw [eq_append_of_cut hcut, List.append_assoc]
  rfl

/-- The loop of `onData` ends with the last complete line, and is without rejections if no line that it comes to is rejected
for. -/
theorem drain_frame (fuel : ℕ) (hfuel : c.buffer.length ≤ fuel) : (10 : UInt16) ∉ (drain N fuel c).buffer ∧
    ((drain N fuel c).unhandled = [] ↔
      c.unhandled = [] ∧ ¬ ∃ c' line, Handles N c c' line ∧ LineRejects N c' line) := by
  induction fuel generalizing c with
  | zero =>
    have hbuffer : c.buffer = [] := List.length_eq_zero_iff.mp (Nat.le_zero.mp hfuel)
    have hnone : c.nextLine = none := nextLine_eq_none_iff.mpr (by simp [hbuffer])
    refine ⟨by simp [drain, hbuffer], ?_⟩
    have hnothing : ¬ ∃ c' line, Handles N c c' line ∧ LineRejects N c' line := by
      rintro ⟨c', line, hhandles, -⟩
      cases hhandles <;> simp_all
    rw [drain, and_iff_left hnothing]
  | succ fuel ih =>
    rw [drain]
    cases hnext : c.nextLine with
    | none =>
      have hnothing : ¬ ∃ c' line, Handles N c c' line ∧ LineRejects N c' line := by
        rintro ⟨c', line, hhandles, -⟩
        cases hhandles <;> simp_all
      exact ⟨nextLine_eq_none_iff.mp hnext, (and_iff_left hnothing).symm⟩
    | some next =>
      obtain ⟨line, c'⟩ := next
      obtain ⟨rest, hbuffer, -, rfl⟩ := eq_of_nextLine hnext
      obtain ⟨hkept, hunhandled⟩ := handleLine_frame (N := N) (c := { c with buffer := rest }) line
      have hshorter : (handleLine N line { c with buffer := rest }).buffer.length ≤ fuel := by
        rw [hkept]
        rw [hbuffer, List.length_append, List.length_cons] at hfuel
        dsimp only
        omega
      obtain ⟨hdone, hiff⟩ := ih hshorter
      refine ⟨hdone, hiff.trans ?_⟩
      have hlines : (∃ c'' line', Handles N c c'' line' ∧ LineRejects N c'' line') ↔
          LineRejects N { c with buffer := rest } line ∨
            ∃ c'' line', Handles N (handleLine N line { c with buffer := rest }) c'' line' ∧ LineRejects N c'' line' := by
        constructor
        · rintro ⟨c'', line', hhandles, hrejects⟩
          cases hhandles with
          | here h =>
            cases hnext.symm.trans h
            exact .inl hrejects
          | later h hrest =>
            cases hnext.symm.trans h
            exact .inr ⟨c'', line', hrest, hrejects⟩
        · rintro (hrejects | ⟨c'', line', hrest, hrejects⟩)
          · exact ⟨_, line, .here hnext, hrejects⟩
          · exact ⟨c'', line', .later hnext hrest, hrejects⟩
      rw [hunhandled, hlines, not_or, and_assoc]

end Lines

end Messages

/-- The event ends the process. -/
def Crashes (N : Numerals) (c : Connection) : Event → Prop
  | .data bytes => ∃ c' line, Handles N (c.receive bytes) c' line ∧ LineRejects N c' line
  | .settled k result => c.ResultRejects k result
  | _ => False

/-! ### Runs without a crash -/

section Runs

variable {N : Numerals} {c : Connection}

theorem drain_done (fuel : ℕ) (h : (10 : UInt16) ∉ c.buffer) : drain N fuel c = c := by
  cases fuel with
  | zero => rfl
  | succ fuel => rw [drain, nextLine_eq_none_iff.mpr h]

theorem onSettled_frame (k : ℕ) (result : HandlerResult) : (onSettled k result c).buffer = c.buffer ∧
    ((onSettled k result c).unhandled = [] ↔ c.unhandled = [] ∧ ¬ c.ResultRejects k result) := by
  rw [onSettled, ResultRejects]
  cases hinvocation : c.invocations[k]? with
  | none => simp
  | some invocation =>
    dsimp only
    split
    · rename_i hresult
      obtain ⟨r, hr⟩ := Option.isSome_iff_exists.mp hresult
      simp [hr]
    · rename_i hresult
      rw [Option.not_isSome_iff_eq_none] at hresult
      cases hid : invocation.id with
      | some id =>
        cases result with
        | resolves value => simp [unawaited, finishRequest, Act.modify, writeNdjson]
        | rejects reason =>
          cases reason with
          | nullish => simp [unawaited, finishRequest, Rejection.message, Act.ofExcept, Act.bind_apply, hresult, hid]
          | error message =>
            simp [unawaited, finishRequest, Rejection.message, Act.ofExcept_ok_bind, Act.modify, writeNdjson, hid]
      | none => cases result <;> simp [unawaited, finishNotification, Act.throw, hresult, hid]

theorem onEvent_frame (e : Event) (hbuffer : (10 : UInt16) ∉ c.buffer) : (10 : UInt16) ∉ (onEvent N e c).buffer ∧
    ((onEvent N e c).unhandled = [] ↔ c.unhandled = [] ∧ ¬ Crashes N c e) := by
  have hclose : (10 : UInt16) ∉ (handleClose c).buffer ∧ ((handleClose c).unhandled = [] ↔ c.unhandled = []) := by
    rw [handleClose_eq]
    exact ⟨hbuffer, Iff.rfl⟩
  cases e with
  | data bytes => exact drain_frame _ (Nat.le_refl _)
  | streamEnd =>
    have hfinish : (10 : UInt16) ∉ c.buffer ++ c.decoder.finish := by
      rw [List.mem_append, not_or, Utf8State.finish]
      refine ⟨hbuffer, ?_⟩
      split
      · exact List.not_mem_nil
      · decide
    rw [onEvent, onEnd, drain_done _ hfinish, handleClose_eq]
    exact ⟨hfinish, by simp [Crashes]⟩
  | streamError => exact ⟨hclose.1, hclose.2.trans (by simp [Crashes])⟩
  | close => exact ⟨hclose.1, hclose.2.trans (by simp [Crashes])⟩
  | registerMethod name =>
    rw [onEvent, registerMethod]
    split <;> exact ⟨hbuffer, by simp [Crashes]⟩
  | call id method params =>
    rw [onEvent, call]
    split <;> exact ⟨hbuffer, by simp [Crashes, writeNdjson]⟩
  | notify method params => exact ⟨hbuffer, by simp [onEvent, notify, writeNdjson, Crashes]⟩
  | settled k result =>
    obtain ⟨hkept, hiff⟩ := onSettled_frame (c := c) k result
    exact ⟨by rw [onEvent, hkept]; exact hbuffer, hiff⟩

theorem run_concat (events : List Event) (e : Event) : run N (events ++ [e]) = onEvent N e (run N events) := by
  rw [run, run, List.foldl_append]
  rfl

theorem buffer_run (events : List Event) : (10 : UInt16) ∉ (run N events).buffer := by
  induction events using List.reverseRecOn with
  | nil => exact List.not_mem_nil
  | append_singleton events e ih =>
    rw [run_concat]
    exact (onEvent_frame e ih).1

/-- **When nothing ends the process.** For every stream of bytes in every chunking, and everything else that happens in
between: no rejection is left behind exactly when no event ends the process in the state it finds. -/
theorem crash_free_iff (events : List Event) :
    (run N events).unhandled = [] ↔ ∀ before e, before ++ [e] <+: events → ¬ Crashes N (run N before) e := by
  induction events using List.reverseRecOn with
  | nil =>
    refine iff_of_true rfl fun before e h => ?_
    exact absurd (List.prefix_nil.mp h) (List.append_ne_nil_of_right_ne_nil _ (List.cons_ne_nil _ _))
  | append_singleton events e ih =>
    rw [run_concat, (onEvent_frame e (buffer_run events)).2, ih]
    exact History.forall_concat.symm

end Runs

/-- A child writes `null`. -/
theorem null_crashes : ¬ (run Numerals.exact [.registerMethod (js "host.call"), .data (utf8 (js "null\n"))]).unhandled = [] := by
  decide +kernel

end Connection

end Wanfw.Pluginhost
