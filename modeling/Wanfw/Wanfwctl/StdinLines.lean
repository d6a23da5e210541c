import Wanfw.Js.Lines

/-!
# Lines of the standard input

`ensureStdinLineListener` and `nextStdinLine` of `cli.ts`. A chunk that arrives is held by the
stream until the listener is attached, which the first call does; then it is handed over, chunk by
chunk. A line that is complete goes to the call that has waited longest, or else into the queue.

`lines_in_order`: in every run, the calls are resolved with the lines in their order, each with one,
and no call waits while there is a line in the queue.
-/

namespace Wanfw.Wanfwctl

open Wanfw.Js

/-- The standard input and what the module keeps of it. -/
structure Stdin where
  /-- The chunks that the stream holds. -/
  held : List JsString := []
  /-- The text of the chunks that it has handed over. -/
  delivered : JsString := []
  attached : Bool := false
  buffer : JsString := []
  queued : List JsString := []
  /-- The calls that wait, by their number. -/
  pending : List ℕ := []
  calls : ℕ := 0
  /-- The lines that calls were resolved with, in the order of that. -/
  resolved : List (JsString × ℕ) := []

/-- What happens. -/
inductive StdinEvent where
  | arrives (chunk : JsString)
  /-- The stream hands a chunk over, if it holds one and the listener is attached. -/
  | data
  | call

/-! ### The source -/

/-- `.replace(/\\r$/, "")`. -/
def stripReturn (line : JsString) : JsString := if line.getLast? = some 13 then line.dropLast else line

namespace Stdin

/-- A complete line. -/
def onLine (line : JsString) (s : Stdin) : Stdin :=
  match s.pending with
  | resolver :: rest => { s with pending := rest, resolved := s.resolved ++ [(line, resolver)] }
  | [] => { s with queued := s.queued ++ [line] }

/-- The listener. -/
def onData (chunk : JsString) (s : Stdin) : Stdin :=
  let buffer := s.buffer ++ chunk
  let (buffer, s) := eachLine (fun line => onLine (stripReturn line)) buffer.length buffer s
  { s with buffer }

/-- `ensureStdinLineListener`. -/
def ensureStdinLineListener (s : Stdin) : Stdin := { s with attached := true }

/-- `nextStdinLine`. -/
def nextStdinLine (s : Stdin) : Stdin :=
  let s := s.ensureStdinLineListener
  match s.queued with
  | queued :: rest => { s with queued := rest, calls := s.calls + 1, resolved := s.resolved ++ [(queued, s.calls)] }
  | [] => { s with pending := s.pending ++ [s.calls], calls := s.calls + 1 }

/-- What an event does. -/
def step (s : Stdin) : StdinEvent → Stdin
  | .arrives chunk => { s with held := s.held ++ [chunk] }
  | .data =>
    match s.attached, s.held with
    | true, chunk :: rest => onData chunk { s with held := rest, delivered := s.delivered ++ chunk }
    | _, _ => s
  | .call => s.nextStdinLine

/-- A run. -/
def run (s : Stdin) (events : List StdinEvent) : Stdin := events.foldl step s

end Stdin

/-! ### Lines and calls -/

/-- A call of `nextStdinLine`. -/
def StdinEvent.isCall : StdinEvent → Bool
  | .call => true
  | _ => false

/-- The lines of a text. -/
def stdinLines (text : JsString) : List JsString := (completeLines text).map stripReturn

/-- The text that arrives in a run. -/
def arrived (events : List StdinEvent) : JsString :=
  events.flatMap fun
    | .arrives chunk => chunk
    | _ => []

theorem arrived_replicate_data (n : ℕ) : arrived (List.replicate n .data) = [] :=
  List.flatMap_eq_nil_iff.mpr fun e he => by rw [List.eq_of_mem_replicate he]

/-- The lines of a text that has arrived in part. -/
theorem stdinLines_prefix (s t : JsString) : stdinLines s <+: stdinLines (s ++ t) := by
  rw [stdinLines, stdinLines, (lines_append s t).1, List.map_append]
  exact List.prefix_append _ _

namespace Stdin

variable {s : Stdin} {lines : List JsString}

/-- With these lines, the calls have got the first of them, and the others are in the queue; the calls beyond them wait. -/
structure Matches (lines : List JsString) (s : Stdin) : Prop where
  resolved : s.resolved = (lines.take s.calls).zipIdx
  queued : s.queued = lines.drop s.calls
  pending : s.pending = List.range' lines.length (s.calls - lines.length)

/-- There is no line in the queue, or no call that waits. -/
theorem Matches.exclusive (h : Matches lines s) : s.queued = [] ∨ s.pending = [] := by
  rcases Nat.le_total lines.length s.calls with hle | hle
  · exact .inl (by rw [h.queued, List.drop_eq_nil_of_le hle])
  · exact .inr (by rw [h.pending, Nat.sub_eq_zero_of_le hle, List.range'_zero])

/-- One more line goes to the first call that waits, or into the queue. -/
theorem Matches.onLine (h : Matches lines s) (line : JsString) : Matches (lines ++ [line]) (s.onLine line) := by
  unfold Stdin.onLine
  rcases Nat.lt_or_ge lines.length s.calls with hlt | hge
  · have hpending : s.pending = lines.length :: List.range' (lines.length + 1) (s.calls - lines.length - 1) := by
      rw [h.pending, ← List.range'_succ]
      congr 1
      omega
    rw [hpending]
    dsimp only
    refine ⟨?_, ?_, ?_⟩
    · dsimp only
      rw [h.resolved, List.take_of_length_le hlt.le, List.take_of_length_le (by simpa using hlt), List.zipIdx_append]
      simp
    · dsimp only
      rw [h.queued, List.drop_eq_nil_of_le hlt.le, List.drop_eq_nil_of_le (by simpa using hlt)]
    · dsimp only
      rw [List.length_append, List.length_singleton, Nat.sub_add_eq]
  · have hpending : s.pending = [] := by rw [h.pending, Nat.sub_eq_zero_of_le hge, List.range'_zero]
    rw [hpending]
    dsimp only
    refine ⟨?_, ?_, ?_⟩
    · dsimp only
      rw [h.resolved, List.take_append_of_le_length hge]
    · dsimp only
      rw [h.queued, List.drop_append_of_le_length hge]
    · dsimp only
      rw [Nat.sub_eq_zero_of_le (by simp; omega), List.range'_zero]

/-- One more call takes the first line of the queue, or waits. -/
theorem Matches.nextStdinLine (h : Matches lines s) : Matches lines s.nextStdinLine := by
  unfold Stdin.nextStdinLine ensureStdinLineListener
  dsimp only
  rcases Nat.lt_or_ge s.calls lines.length with hlt | hge
  · have hqueued : s.queued = lines[s.calls] :: lines.drop (s.calls + 1) := by rw [h.queued, List.drop_eq_getElem_cons hlt]
    rw [hqueued]
    dsimp only
    refine ⟨?_, rfl, ?_⟩
    · dsimp only
      rw [h.resolved, List.take_succ_eq_append_getElem hlt, List.zipIdx_append, List.length_take_of_le hlt.le]
      simp
    · dsimp only
      rw [h.pending, Nat.sub_eq_zero_of_le hlt.le, Nat.sub_eq_zero_of_le hlt]
  · have hqueued : s.queued = [] := by rw [h.queued, List.drop_eq_nil_of_le hge]
    rw [hqueued]
    dsimp only
    refine ⟨?_, ?_, ?_⟩
    · dsimp only
      rw [h.resolved, List.take_of_length_le hge, List.take_of_length_le (hge.trans (Nat.le_succ _))]
    · dsimp only
      rw [List.drop_eq_nil_of_le (hge.trans (Nat.le_succ _))]
    · dsimp only
      rw [h.pending, show s.calls + 1 - lines.length = s.calls - lines.length + 1 by omega, List.range'_concat,
        show lines.length + 1 * (s.calls - lines.length) = s.calls by omega]

theorem Matches.foldl_onLine (h : Matches lines s) (ls : List JsString) :
    Matches (lines ++ ls.map stripReturn) (ls.foldl (fun s line => s.onLine (stripReturn line)) s) := by
  induction ls generalizing s lines with
  | nil => simpa using h
  | cons l ls ih =>
    have hnext := ih (h.onLine (stripReturn l))
    rwa [List.append_assoc, List.singleton_append] at hnext

/-- What a line leaves as it is. -/
theorem frame_onLine (line : JsString) :
    (s.onLine line).calls = s.calls ∧ (s.onLine line).attached = s.attached ∧ (s.onLine line).held = s.held ∧
      (s.onLine line).delivered = s.delivered := by
  unfold onLine
  split <;> exact ⟨rfl, rfl, rfl, rfl⟩

theorem frame_foldl_onLine (ls : List JsString) :
    let t := ls.foldl (fun s line => s.onLine (stripReturn line)) s
    t.calls = s.calls ∧ t.attached = s.attached ∧ t.held = s.held ∧ t.delivered = s.delivered := by
  induction ls generalizing s with
  | nil => exact ⟨rfl, rfl, rfl, rfl⟩
  | cons l ls ih =>
    obtain ⟨hcalls, hattached, hheld, hdelivered⟩ := s.frame_onLine (stripReturn l)
    obtain ⟨hcalls', hattached', hheld', hdelivered'⟩ := ih (s := s.onLine (stripReturn l))
    exact ⟨hcalls'.trans hcalls, hattached'.trans hattached, hheld'.trans hheld, hdelivered'.trans hdelivered⟩

/-! ### Runs -/

/-- What holds throughout a run: the lines of what was handed over are matched with the calls, and the last one is not
complete yet. -/
structure Inv (s : Stdin) : Prop where
  matched : Matches (stdinLines s.delivered) s
  buffer : s.buffer = openLine s.delivered
  attached : s.attached = decide (0 < s.calls)

theorem inv_init : Inv {} := ⟨⟨rfl, rfl, rfl⟩, rfl, rfl⟩

/-- Setting the text that is kept, or what the stream holds, changes no match. -/
theorem Matches.frame (h : Matches lines s) (held : List JsString) (delivered buffer : JsString) (attached : Bool) :
    Matches lines { s with held, delivered, buffer, attached } := ⟨h.resolved, h.queued, h.pending⟩

/-- **The listener** goes on with the lines that have become complete, and keeps the rest. -/
theorem onData_eq (chunk : JsString) (s : Stdin) :
    onData chunk s = { (completeLines (s.buffer ++ chunk)).foldl (fun s line => s.onLine (stripReturn line)) s with
      buffer := openLine (s.buffer ++ chunk) } := by
  unfold onData
  dsimp only
  rw [eachLine_eq _ le_rfl]

theorem Inv.onData (h : Inv s) (chunk : JsString) (rest : List JsString) :
    Inv (Stdin.onData chunk { s with held := rest, delivered := s.delivered ++ chunk }) := by
  rw [onData_eq]
  obtain ⟨hcomplete, hopen⟩ := lines_append s.delivered chunk
  rw [← h.buffer] at hcomplete hopen
  have hmatched := (h.matched.frame rest (s.delivered ++ chunk) s.buffer s.attached).foldl_onLine (completeLines (s.buffer ++ chunk))
  obtain ⟨hcalls, hattached, -, hdelivered⟩ :=
    frame_foldl_onLine (s := { s with held := rest, delivered := s.delivered ++ chunk }) (completeLines (s.buffer ++ chunk))
  refine ⟨?_, ?_, ?_⟩
  · dsimp only
    rw [hdelivered, stdinLines, hcomplete, List.map_append]
    exact hmatched.frame _ _ _ _
  · dsimp only
    rw [hdelivered, hopen]
  · dsimp only
    rw [hattached, hcalls]
    exact h.attached

/-- What a call does apart from the lines. -/
theorem frame_nextStdinLine (s : Stdin) :
    s.nextStdinLine.calls = s.calls + 1 ∧ s.nextStdinLine.attached = true ∧ s.nextStdinLine.held = s.held ∧
      s.nextStdinLine.delivered = s.delivered ∧ s.nextStdinLine.buffer = s.buffer := by
  unfold nextStdinLine ensureStdinLineListener
  dsimp only
  split <;> exact ⟨rfl, rfl, rfl, rfl, rfl⟩

theorem Inv.nextStdinLine (h : Inv s) : Inv s.nextStdinLine := by
  obtain ⟨hcalls, hattached, -, hdelivered, hbuffer⟩ := s.frame_nextStdinLine
  refine ⟨?_, ?_, ?_⟩
  · rw [hdelivered]
    exact h.matched.nextStdinLine
  · rw [hbuffer, hdelivered, h.buffer]
  · rw [hattached, hcalls, decide_eq_true (Nat.succ_pos _)]

theorem step_data_of_detached (h : s.attached = false) : s.step .data = s := by
  unfold step
  rw [h]

theorem step_data_nil (h : s.held = []) : s.step .data = s := by
  unfold step
  rw [h]
  split <;> first | rfl | simp_all

theorem step_data_cons (h : s.attached = true) {chunk : JsString} {rest : List JsString} (hheld : s.held = chunk :: rest) :
    s.step .data = onData chunk { s with held := rest, delivered := s.delivered ++ chunk } := by
  unfold step
  rw [h, hheld]

/-- What the stream's event does: nothing, or the listener gets the first chunk. -/
theorem step_data_cases (s : Stdin) :
    s.step .data = s ∨ ∃ chunk rest, s.held = chunk :: rest ∧
      s.step .data = onData chunk { s with held := rest, delivered := s.delivered ++ chunk } := by
  by_cases hattached : s.attached = true
  · rcases hheld : s.held with - | ⟨chunk, rest⟩
    · exact .inl (step_data_nil hheld)
    · exact .inr ⟨chunk, rest, rfl, step_data_cons hattached hheld⟩
  · exact .inl (step_data_of_detached (Bool.eq_false_of_not_eq_true hattached))

theorem Inv.step (h : Inv s) (e : StdinEvent) : Inv (s.step e) := by
  cases e with
  | arrives chunk => exact ⟨h.matched.frame _ _ _ _, h.buffer, h.attached⟩
  | call => exact h.nextStdinLine
  | data =>
    rcases s.step_data_cases with heq | ⟨chunk, rest, -, heq⟩
    · rwa [heq]
    · rw [heq]
      exact h.onData chunk rest

theorem Inv.run (h : Inv s) (events : List StdinEvent) : Inv (s.run events) := by
  induction events generalizing s with
  | nil => exact h
  | cons e events ih => exact ih (h.step e)

theorem step_calls (s : Stdin) (e : StdinEvent) : (s.step e).calls = s.calls + if e.isCall then 1 else 0 := by
  cases e with
  | arrives chunk => rfl
  | call => exact s.frame_nextStdinLine.1
  | data =>
    rcases s.step_data_cases with heq | ⟨chunk, rest, -, heq⟩
    · rw [heq]
      rfl
    · rw [heq, onData_eq]
      exact (frame_foldl_onLine _).1

/-- What was handed over and what is held is what has arrived. -/
theorem step_text (s : Stdin) (e : StdinEvent) :
    (s.step e).delivered ++ (s.step e).held.flatten = s.delivered ++ s.held.flatten ++ arrived [e] := by
  cases e with
  | arrives chunk => simp [step, arrived]
  | call =>
    obtain ⟨-, -, hheld, hdelivered, -⟩ := s.frame_nextStdinLine
    rw [step, hheld, hdelivered]
    simp [arrived]
  | data =>
    rcases s.step_data_cases with heq | ⟨chunk, rest, hchunk, heq⟩
    · rw [heq]
      simp [arrived]
    · rw [heq, onData_eq, hchunk]
      obtain ⟨-, -, hheld, hdelivered⟩ :=
        frame_foldl_onLine (s := { s with held := rest, delivered := s.delivered ++ chunk }) (completeLines (s.buffer ++ chunk))
      dsimp only
      rw [hheld, hdelivered]
      simp [arrived]

theorem run_text (s : Stdin) (events : List StdinEvent) :
    (s.run events).delivered ++ (s.run events).held.flatten = s.delivered ++ s.held.flatten ++ arrived events := by
  induction events generalizing s with
  | nil => simp [run, arrived]
  | cons e events ih =>
    rw [run, List.foldl_cons, ← run, ih, step_text]
    simp [arrived]

/-- The stream hands over all that it holds, once the listener is attached. -/
theorem run_replicate_data (h : s.attached = true) :
    (s.run (List.replicate s.held.length .data)).held = [] ∧ (s.run (List.replicate s.held.length .data)).calls = s.calls := by
  induction hheld : s.held generalizing s with
  | nil => exact ⟨hheld, rfl⟩
  | cons chunk rest ih =>
    obtain ⟨hcalls, hattached, hrest, -⟩ :=
      frame_foldl_onLine (s := { s with held := rest, delivered := s.delivered ++ chunk }) (completeLines (s.buffer ++ chunk))
    rw [List.length_cons, List.replicate_succ, run, List.foldl_cons, ← run, step_data_cons h hheld, onData_eq]
    obtain ⟨hnil, hcalls'⟩ := ih (s := { (completeLines (s.buffer ++ chunk)).foldl (fun s line => s.onLine (stripReturn line))
      { s with held := rest, delivered := s.delivered ++ chunk } with buffer := openLine (s.buffer ++ chunk) }) (hattached.trans h) hrest
    exact ⟨hnil, hcalls'.trans hcalls⟩

/-- The calls of a run. -/
theorem run_calls (s : Stdin) (events : List StdinEvent) :
    (s.run events).calls = s.calls + events.countP StdinEvent.isCall := by
  induction events generalizing s with
  | nil => rfl
  | cons e events ih =>
    rw [run, List.foldl_cons, ← run, ih, List.countP_cons, step_calls]
    omega

end Stdin

/-- **Prompt lines are delivered in order**: in every run, whatever the division of the text into chunks and the order of chunks and
calls, the calls are resolved with the lines handed over, in their order, each call with one, and those that are left wait in
the queue; no line waits while a call does; and nothing of what has arrived is lost or comes twice. Once a call has attached the
listener, the stream has but to hand over what it holds for the calls to have the lines of all that has arrived. -/
theorem lines_in_order (events : List StdinEvent) :
    let s := Stdin.run {} events
    let calls := events.countP StdinEvent.isCall
    let lines := stdinLines s.delivered
    s.resolved = (lines.take calls).zipIdx ∧ s.queued = lines.drop calls ∧
      s.pending = List.range' lines.length (calls - lines.length) ∧ (s.queued = [] ∨ s.pending = []) ∧
      s.delivered ++ s.held.flatten = arrived events ∧ lines <+: stdinLines (arrived events) ∧
      (0 < calls → (s.run (List.replicate s.held.length .data)).resolved = ((stdinLines (arrived events)).take calls).zipIdx) := by
  have hinv := Stdin.inv_init.run events
  have hcalls : (Stdin.run {} events).calls = events.countP StdinEvent.isCall := by rw [Stdin.run_calls, Nat.zero_add]
  have htext : (Stdin.run {} events).delivered ++ (Stdin.run {} events).held.flatten = arrived events := Stdin.run_text {} events
  dsimp only
  refine ⟨?_, ?_, ?_, hinv.matched.exclusive, htext, ?_, ?_⟩
  · rw [← hcalls, hinv.matched.resolved]
  · rw [← hcalls, hinv.matched.queued]
  · rw [← hcalls, hinv.matched.pending]
  · rw [← htext]
    exact stdinLines_prefix _ _
  · intro hpos
    have hattached : (Stdin.run {} events).attached = true := by rw [hinv.attached, hcalls, decide_eq_true hpos]
    obtain ⟨hheld, hsame⟩ := Stdin.run_replicate_data hattached
    have hdone := Stdin.run_text (Stdin.run {} events) (List.replicate (Stdin.run {} events).held.length .data)
    rw [hheld, htext, arrived_replicate_data, List.flatten_nil, List.append_nil, List.append_nil] at hdone
    rw [(hinv.run _).matched.resolved, hsame, hcalls, hdone]

/-- Two answers that arrive in one and a half chunks, before the second question. -/
theorem lines_in_order_answers :
    let events : List StdinEvent := [.arrives (js "yes\r\nn"), .call, .data, .arrives (js "o\n"), .call]
    let s := Stdin.run {} events
    s.resolved = [(js "yes", 0)] ∧ s.pending = [1] ∧
      (s.run (List.replicate s.held.length .data)).resolved = [(js "yes", 0), (js "no", 1)] := by
  intro events s
  have h := lines_in_order events
  dsimp only at h
  obtain ⟨hresolved, -, hpending, -, -, -, hdone⟩ := h
  refine ⟨hresolved.trans (by decide), hpending.trans (by decide), (hdone (by decide)).trans (by decide)⟩

end Wanfw.Wanfwctl
