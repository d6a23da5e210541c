import Wanfw.Pluginhost.ChildRunner
import Wanfw.Pluginhost.JsonRpcPair
import Wanfw.Plugins.CertLetsencrypt.Bracket

/-!
# Issuing under the limits of an invocation

`cert.ensure` runs in a child process (`main.ts`): the calls of the orchestrator are lines
on its stdout, and so is its result. The plugin host reports a result once the child has
answered, but also when the timer of the invocation fires or the child is gone
(`child-runner.ts`), and the reconciler grants 30 seconds (`plugin-invoker.ts`).

The polling loops wait for ten minutes. `cleansUp_iff`: when the result is reported each
published record has been taken down if and only if nothing ends the invocation from
outside while a record is up.
-/

namespace Wanfw.Plugins.CertLetsencrypt

open Wanfw.Js Wanfw.Pluginhost Wanfw.Store Dialogue

/-! ### The child -/

/-- `DnsRecord`, as it is sent. -/
def DnsRecord.toJson (record : DnsRecord) : Json := .obj (Value.object [(js "type", some (.str record.type)),
  (js "name", some (.str record.name)), (js "value", some (.str record.value)), (js "ttl", record.ttl.map .num)])

/-- `callHost(method, args)`, for the dependencies that are calls of the orchestrator. -/
def hostCall : Call → Option (JsString × Obj Json)
  | .secretsGet name => some (js "secrets.get", [(js "name", .str name)])
  | .secretsPut name value => some (js "secrets.put", [(js "name", .str name), (js "value", .str value)])
  | .dnsSetRecord zone record => some (js "dns.setRecord", [(js "zone", .str zone), (js "record", record.toJson)])
  | .dnsDeleteRecord zone record => some (js "dns.deleteRecord", [(js "zone", .str zone), (js "record", record.toJson)])
  | .dnsQuery name type result =>
    some (js "dns.query", [(js "name", .str name), (js "type", .str type), (js "result", .arr (result.map .str))])
  | .certsStore name certPem keyPem certMeta => some (js "certs.store",
      [(js "name", .str name), (js "certPem", .str certPem), (js "keyPem", .str keyPem), (js "meta", .obj certMeta)])
  | _ => none

/-- The message of a call of the orchestrator; `id` is `nextHostCallId`. -/
def hostMessage (id : ℕ) (method : JsString) (args : Obj Json) : Message :=
  .request (js "host-" ++ natToString id) (js "host.call") (some (.obj [(js "method", .str method), (js "args", .obj args)]))

/-- The answer to the task, once `certEnsure` is over. -/
def resultMessage (callId : JsString) : Progress Unit → Option Message
  | .returned _ => some (.success callId (.obj []))
  | .threw e => some (.failure callId 32000 e.message)
  | .running => none

/-- What happens in an invocation. -/
inductive Moment where
  /-- The plugin makes a call. -/
  | made (id : ℕ) (e : Event)
  /-- The outcome of the call arrives. -/
  | settled (e : Event)
  /-- The plugin answers the task. -/
  | answered (progress : Progress Unit)
  /-- Anything else that happens to the child or to the invocation. -/
  | happened (e : ChildEvent)

/-- What the plugin host sees of it. -/
def Moment.childEvent (callId : JsString) : Moment → Option ChildEvent
  | .made id e => (hostCall e.call).map fun c => .stdout (hostMessage id c.1 c.2).line
  | .settled _ => none
  | .answered progress => (resultMessage callId progress).map fun m => .stdout m.line
  | .happened e => some e

/-- What the plugin does itself. -/
def Moment.isPlugin : Moment → Bool
  | .happened _ => false
  | _ => true

/-- The calls of a run, and their outcomes where the plugin waits for them. -/
def spoken : ℕ → List Event → List Moment
  | _, [] => []
  | id, e :: calls =>
    .made id e :: ((if e.outcome.isSome then [.settled e] else []) ++
      spoken (if (hostCall e.call).isSome then id + 1 else id) calls)

/-- All that the plugin does. -/
def course (run : Progress Unit × List Event) : List Moment :=
  spoken 1 run.2 ++ match run.1 with
    | .running => []
    | progress => [.answered progress]

/-! ### The invocation -/

/-- `wallMs` of `buildRealPluginInvoker`. -/
def wallMs : ℕ := 30000

/-- What comes from outside: not what the plugin writes to its stdout. -/
def Outside : ChildEvent → Prop
  | .stdout _ | .notificationRejected => False
  | _ => True

/-- What ends an invocation from outside: the timer, the exit of the child, an error of the spawn or a stream that ends or
fails. -/
def ends : ChildEvent → Bool
  | .timeout | .exit _ | .error _ | .stdoutEnd | .stdoutError | .stdinError => true
  | _ => false

/-- An invocation of `cert.ensure`, with the milliseconds since its start. -/
structure Invocation where
  N : Numerals
  C : Crypto
  directoryUrl : JsString
  input : CertEnsureInput
  answers : Answers Call Answer
  rounds : ℕ
  job : InvocationJob
  callId : JsString
  moments : List (ℕ × Moment)
  /-- The plugin does what `certEnsure` does, as far as it comes. -/
  plugin : (moments.map Prod.snd).filter Moment.isPlugin <+: course (certEnsure N C rounds directoryUrl input answers [])
  outside : ∀ t e, (t, Moment.happened e) ∈ moments → Outside e
  ordered : (moments.map Prod.fst).Pairwise (· ≤ ·)
  timer : ∀ t, (t, Moment.happened .timeout) ∈ moments → wallMs ≤ t

/-- The plugin host after these moments. -/
def Invocation.runner (inv : Invocation) (moments : List (ℕ × Moment)) : Runner :=
  runInvocation inv.N inv.job inv.callId (Decimal.ofNat wallMs) ((moments.map Prod.snd).filterMap (Moment.childEvent inv.callId))

/-- Each record whose `dns.setRecord` has completed has been taken down: `dns.deleteRecord` was requested. -/
def NothingUp (moments : List (ℕ × Moment)) : Prop :=
  ∀ earlier t zone record later, moments = earlier ++ (t, .settled ⟨.dnsSetRecord zone record, some (.ok ())⟩) :: later →
    ∃ t' id o, (t', .made id ⟨.dnsDeleteRecord zone record, o⟩) ∈ later

/-- When the result is reported, no record is up. -/
def CleansUp (inv : Invocation) : Prop :=
  ∀ before m after, inv.moments = before ++ m :: after → (inv.runner before).settled = none →
    (inv.runner (before ++ [m])).settled.isSome → NothingUp (before ++ [m])

/-- What can only come once: the plugin's answer, and what ends the invocation from outside. -/
def Moment.final : Moment → Bool
  | .answered _ => true
  | .happened e => ends e
  | _ => false

/-- Nothing ends the invocation from outside while a record is up. -/
def Undisturbed (inv : Invocation) : Prop :=
  ∀ before t e after, inv.moments = before ++ (t, .happened e) :: after → ends e = true →
    (∀ m ∈ before, m.2.final = false) → NothingUp before

/-! ### The plugin host, until a result is reported -/

/-- A running invocation, between two lines. -/
structure Alive (r : Runner) : Prop where
  buffer : r.buffer = []
  pending : r.pending = true
  outcome : r.outcome = none
  settled : r.settled = none
  crashed : r.crashed = false

section Host

variable {N : Numerals} {job : InvocationJob} {callId : JsString} {wall : Decimal} {r : Runner}

/-- A whole line is one message. -/
theorem onData_line (hbuffer : r.buffer = []) {m : Message} (hm : m.Proper) :
    r.onData N job callId m.line = { r with buffer := [] }.handleMessage job callId (.obj m.toObj) := by
  obtain ⟨hline, htrim⟩ := m.text_plain
  have hsplit : split (r.buffer ++ m.line) 10 = [m.text, []] := by
    rw [hbuffer, List.nil_append, Message.line]
    exact (split_append_cons hline []).trans (by rw [split_of_not_mem (by simp)])
  unfold Runner.onData Runner.lines
  rw [hsplit]
  simp only [List.dropLast, List.foldl]
  unfold Runner.handleLine
  rw [if_neg (by simpa using htrim), Message.parse_text hm]
  rfl

theorem Alive.step_hostCall (h : Alive r) {id : ℕ} {method : JsString} {args : Obj Json} (hargs : (Json.obj args).Proper) :
    Alive (r.step N job callId wall (.stdout (hostMessage id method args).line)) := by
  have hparams : (Json.obj [(js "method", .str method), (js "args", .obj args)]).Proper := by
    apply Json.Proper.plain (by simp [Obj.keys]; decide) (by simp [Obj.keys]; decide +kernel)
    simpa [Json.Proper.str] using hargs
  have hproper : (hostMessage id method args).Proper := by
    rintro v ⟨⟩
    exact hparams
  have hmethod : Obj.get (hostMessage id method args).toObj (js "method") = some (.str (js "host.call")) := rfl
  unfold Runner.step
  rw [if_neg (by simp [h.crashed]), Runner.onEvent, onData_line h.buffer hproper, Runner.handleMessage, hmethod]
  unfold Runner.handleMethod Runner.endTurn
  simp only [Json.strictEq, beq_self_eq_true, if_true, h.outcome]
  exact ⟨rfl, h.pending, rfl, h.settled, h.crashed⟩

/-- A call that is settled is reported at the end of the turn. -/
theorem settled_endTurn (h : r.outcome ≠ none ∨ r.settled.isSome) : r.endTurn.settled.isSome := by
  have hsettle : ∀ result signals, (r.settle result signals).settled.isSome := by
    intro result signals
    unfold Runner.settle
    split
    · assumption
    · rfl
  unfold Runner.endTurn
  split
  · rename_i hnone
    exact h.resolve_left fun hsome => hsome hnone
  · exact hsettle _ _
  · exact hsettle _ _

variable (callId) in
theorem handleAnswer_success (h : r.pending = true) (v : Json) :
    (r.handleAnswer callId (successMessage (.str callId) (some v))).outcome = some (.ok (some v)) := by
  have hid : Value.strictEq (Obj.get (successMessage (.str callId) (some v)) (js "id")) (.str callId) = true := by
    rw [show Obj.get (successMessage (.str callId) (some v)) (js "id") = some (.str callId) from rfl]
    simp [Value.strictEq, Json.strictEq]
  have hkeys : Obj.keys (successMessage (.str callId) (some v)) = [js "jsonrpc", js "id", js "result"] := rfl
  unfold Runner.handleAnswer
  rw [if_pos ⟨hid, h⟩, hkeys, if_neg (by decide)]
  rfl

variable (callId) in
theorem handleAnswer_failure (h : r.pending = true) (code : ℕ) (message : JsString) :
    (r.handleAnswer callId (errorMessage (.str callId) code (some (.str message)))).outcome = some (.error message) := by
  have hid : Value.strictEq (Obj.get (errorMessage (.str callId) code (some (.str message))) (js "id")) (.str callId) = true := by
    rw [show Obj.get (errorMessage (.str callId) code (some (.str message))) (js "id") = some (.str callId) from rfl]
    simp [Value.strictEq, Json.strictEq]
  have hkeys : Obj.keys (errorMessage (.str callId) code (some (.str message))) = [js "jsonrpc", js "id", js "error"] := rfl
  unfold Runner.handleAnswer
  rw [if_pos ⟨hid, h⟩, hkeys, if_pos (by decide)]
  rfl

theorem Alive.step_result (h : Alive r) {progress : Progress Unit} {m : Message} (hm : resultMessage callId progress = some m) :
    (r.step N job callId wall (.stdout m.line)).settled.isSome := by
  unfold Runner.step
  rw [if_neg (by simp [h.crashed]), Runner.onEvent]
  refine settled_endTurn (.inl ?_)
  cases progress with
  | returned _ =>
    cases hm
    have hproper : (Message.success callId (.obj [])).Proper := Json.Proper.plain (by simp [Obj.keys]) (by simp [Obj.keys]) (by simp)
    rw [onData_line h.buffer hproper, Runner.handleMessage]
    have hpending : { r with buffer := [] }.pending = true := h.pending
    have houtcome := handleAnswer_success callId hpending (.obj [])
    exact fun hnone => Option.some_ne_none _ (houtcome.symm.trans hnone)
  | threw e =>
    cases hm
    rw [onData_line h.buffer (by trivial), Runner.handleMessage]
    have hpending : { r with buffer := [] }.pending = true := h.pending
    have houtcome := handleAnswer_failure callId hpending 32000 e.message
    exact fun hnone => Option.some_ne_none _ (houtcome.symm.trans hnone)
  | running => cases hm

theorem Alive.step_outside (h : Alive r) {e : ChildEvent} (he : Outside e) (hends : ends e = false) :
    Alive (r.step N job callId wall e) := by
  cases e with
  | stderr chunk =>
    unfold Runner.step Runner.endTurn
    simp only [h.crashed, Bool.false_eq_true, if_false, Runner.onEvent, h.outcome]
    exact ⟨h.buffer, h.pending, rfl, h.settled, rfl⟩
  | stdout chunk => exact he.elim
  | notificationRejected => exact he.elim
  | _ => cases hends

theorem Alive.step_ends (h : Alive r) {e : ChildEvent} (hends : ends e = true) :
    (r.step N job callId wall e).settled.isSome := by
  have hclose : r.handleClose.outcome ≠ none := by simp [Runner.handleClose, h.pending]
  have hsettle : ∀ result signals, (r.settle result signals).settled.isSome := by simp [Runner.settle, h.settled]
  unfold Runner.step
  rw [if_neg (by simp [h.crashed])]
  cases e with
  | stdoutEnd | stdoutError | stdinError => exact settled_endTurn (.inl hclose)
  | timeout | exit code | error message => exact settled_endTurn (.inr (hsettle _ _))
  | stdout chunk | stderr chunk | notificationRejected => cases hends

@[simp] theorem settled_handleClose : r.handleClose.settled = r.settled := by
  unfold Runner.handleClose
  split <;> rfl

@[simp] theorem settled_handleAnswer (msg : Obj Json) : (r.handleAnswer callId msg).settled = r.settled := by
  unfold Runner.handleAnswer
  split
  · split
    · split <;> rfl
    · rfl
  · rfl

@[simp] theorem settled_handleMethod (method : Json) (msg : Obj Json) : (r.handleMethod job method msg).settled = r.settled := by
  unfold Runner.handleMethod
  dsimp only
  split
  · rfl
  · split <;> rfl

theorem settled_handleLine (line : JsString) : (r.handleLine N job callId line).settled = r.settled := by
  unfold Runner.handleLine
  split
  · rfl
  · cases parse N line with
    | none => simp
    | some msg =>
      cases msg with
      | obj msg =>
        simp only [Runner.handleMessage]
        cases Obj.get msg (js "method") <;> simp
      | _ => rfl

theorem settled_foldl (lines : List JsString) (r : Runner) :
    (lines.foldl (Runner.handleLine N job callId) r).settled = r.settled := by
  induction lines generalizing r with
  | nil => rfl
  | cons line lines ih => rw [List.foldl_cons, ih, settled_handleLine]

/-- A reported result stays. -/
theorem settled_step (h : r.settled.isSome) (e : ChildEvent) : (r.step N job callId wall e).settled.isSome := by
  have hsettle : ∀ result signals, (r.settle result signals).settled.isSome := by
    intro result signals
    rw [Runner.settle, if_pos h]
    exact h
  unfold Runner.step
  split
  · exact h
  · refine settled_endTurn (.inr ?_)
    cases e with
    | stdout chunk =>
      rw [Runner.onEvent, Runner.onData, settled_foldl]
      exact h
    | stdoutEnd | stdoutError | stdinError =>
      rw [Runner.onEvent, settled_handleClose]
      exact h
    | stderr chunk =>
      rw [Runner.onEvent]
      exact h
    | timeout | exit code | error message =>
      rw [Runner.onEvent]
      exact hsettle _ _
    | notificationRejected =>
      simp only [Runner.onEvent]
      split <;> exact h

end Host

/-! ### The plugin's own steps -/

section Course

variable {id : ℕ} {calls trace : List Event} {b a : List Moment} {e : Event}

/-- What comes after an outcome is what the plugin does next. -/
theorem spoken_settled (h : spoken id calls = b ++ .settled e :: a) : ∃ front back id', calls = front ++ e :: back ∧ a = spoken id' back := by
  induction calls generalizing id b with
  | nil => simp [spoken] at h
  | cons x calls ih =>
    rcases b with _ | ⟨y, b⟩
    · cases h
    · rw [spoken, List.cons_append, List.cons.injEq] at h
      have hrest : ∀ {b}, spoken (if (hostCall x.call).isSome then id + 1 else id) calls = b ++ .settled e :: a →
          ∃ front back id', x :: calls = front ++ e :: back ∧ a = spoken id' back := by
        intro b hb
        obtain ⟨front, back, id', rfl, rfl⟩ := ih hb
        exact ⟨x :: front, back, id', rfl, rfl⟩
      cases hsome : x.outcome.isSome with
      | false =>
        rw [if_neg (by simp [hsome])] at h
        exact hrest h.2
      | true =>
        rw [if_pos hsome] at h
        rcases b with _ | ⟨z, b⟩
        · have heq := h.2
          simp only [List.singleton_append, List.nil_append, List.cons.injEq, Moment.settled.injEq] at heq
          obtain ⟨rfl, rfl⟩ := heq
          exact ⟨[], calls, _, rfl, rfl⟩
        · have heq := h.2
          simp only [List.cons_append, List.cons.injEq] at heq
          exact hrest heq.2

theorem mem_spoken (h : e ∈ calls) (id : ℕ) : ∃ id', .made id' e ∈ spoken id calls := by
  induction calls generalizing id with
  | nil => cases h
  | cons x calls ih =>
    rcases List.mem_cons.mp h with rfl | h
    · exact ⟨id, by simp [spoken]⟩
    · obtain ⟨id', hid⟩ := ih h (if (hostCall x.call).isSome then id + 1 else id)
      exact ⟨id', by simp [spoken, hid]⟩

theorem settled_mem_spoken (h : e ∈ calls) (hsome : e.outcome.isSome) (id : ℕ) : .settled e ∈ spoken id calls := by
  induction calls generalizing id with
  | nil => cases h
  | cons x calls ih =>
    rw [spoken]
    rcases List.mem_cons.mp h with rfl | h
    · simp [hsome]
    · simp [ih h]

theorem mem_of_made {id' : ℕ} (h : .made id' e ∈ spoken id calls) : e ∈ calls := by
  induction calls generalizing id with
  | nil => cases h
  | cons x calls ih =>
    rw [spoken, List.mem_cons, List.mem_append] at h
    rcases h with h | h | h
    · cases h
      exact List.mem_cons_self
    · split at h <;> simp at h
    · exact List.mem_cons_of_mem _ (ih h)

/-- What the plugin does is to make calls of the host, to be given outcomes, and to answer at the end. -/
theorem mem_spoken_cases {m : Moment} (h : m ∈ spoken id calls) : (∃ id e, m = .made id e) ∨ ∃ e, m = .settled e := by
  induction calls generalizing id with
  | nil => cases h
  | cons x calls ih =>
    rw [spoken, List.mem_cons, List.mem_append] at h
    rcases h with rfl | h | h
    · exact .inl ⟨id, x, rfl⟩
    · split at h
      · rw [List.mem_singleton] at h
        exact .inr ⟨x, h⟩
      · cases h
    · exact ih h

end Course

theorem proper_texts (xs : List JsString) : (Json.arr (xs.map .str)).Proper :=
  .arr fun x hx => by
    obtain ⟨s, -, rfl⟩ := List.mem_map.mp hx
    exact .str s

theorem DnsRecord.proper_toJson (record : DnsRecord) : record.toJson.Proper := by
  apply Message.proper_object (by simp; decide) (by simp; decide +kernel)
  simp [Json.Proper.str, Json.Proper.num]

/-- The arguments of a call are values of the language, if what is to be stored is one. -/
theorem proper_hostCall {c : Call} {method : JsString} {args : Obj Json} (h : hostCall c = some (method, args))
    (hstored : ∀ name certPem keyPem certMeta, c = .certsStore name certPem keyPem certMeta → (Json.obj certMeta).Proper) :
    (Json.obj args).Proper := by
  have hkeys : ∀ {o : Obj Json}, o.keys.Nodup → (∀ k ∈ o.keys, arrayIndex k = none) → (∀ e ∈ o, e.2.Proper) → (Json.obj o).Proper :=
    fun h1 h2 h3 => Json.Proper.plain h1 h2 h3
  cases c with
  | secretsGet name =>
    cases h
    exact hkeys (by simp [Obj.keys]) (by simp [Obj.keys]; decide) (by simp [Json.Proper.str])
  | secretsPut name value =>
    cases h
    exact hkeys (by simp [Obj.keys]; decide) (by simp [Obj.keys]; decide) (by simp [Json.Proper.str])
  | dnsSetRecord zone record =>
    cases h
    exact hkeys (by simp [Obj.keys]; decide) (by simp [Obj.keys]; decide) (by simp [Json.Proper.str, record.proper_toJson])
  | dnsDeleteRecord zone record =>
    cases h
    exact hkeys (by simp [Obj.keys]; decide) (by simp [Obj.keys]; decide) (by simp [Json.Proper.str, record.proper_toJson])
  | dnsQuery name type result =>
    cases h
    exact hkeys (by simp [Obj.keys]; decide) (by simp [Obj.keys]; decide) (by simp [Json.Proper.str, proper_texts])
  | certsStore name certPem keyPem certMeta =>
    cases h
    exact hkeys (by simp [Obj.keys]; decide) (by simp [Obj.keys]; decide) (by simp [Json.Proper.str, hstored _ _ _ _ rfl])
  | _ => cases h

/-! ### An invocation, moment by moment -/

namespace Invocation

variable {inv : Invocation} {before later : List (ℕ × Moment)} {m : ℕ × Moment}

theorem runner_concat (m : ℕ × Moment) : inv.runner (before ++ [m]) = match m.2.childEvent inv.callId with
    | none => inv.runner before
    | some e => (inv.runner before).step inv.N inv.job inv.callId (Decimal.ofNat wallMs) e := by
  unfold Invocation.runner runInvocation
  rw [List.map_append, List.filterMap_append, List.foldl_append]
  cases h : m.2.childEvent inv.callId <;> simp [h]

/-- A reported result stays. -/
theorem settled_append (h : (inv.runner before).settled.isSome) (later : List (ℕ × Moment)) :
    (inv.runner (before ++ later)).settled.isSome := by
  induction later using List.reverseRecOn with
  | nil => simpa using h
  | append_singleton later m ih =>
    rw [← List.append_assoc, runner_concat]
    split
    · exact ih
    · exact settled_step ih _

/-- The plugin answers once `certEnsure` is over. -/
theorem answered_mem {t : ℕ} {progress : Progress Unit} (h : (t, .answered progress) ∈ inv.moments) :
    (certEnsure inv.N inv.C inv.rounds inv.directoryUrl inv.input inv.answers []).1 = progress ∧ progress ≠ .running := by
  have hcourse : Moment.answered progress ∈ course (certEnsure inv.N inv.C inv.rounds inv.directoryUrl inv.input inv.answers []) := by
    refine inv.plugin.subset (List.mem_filter.mpr ⟨?_, rfl⟩)
    exact List.mem_map_of_mem (f := Prod.snd) h
  rcases List.mem_append.mp hcourse with hspoken | hlast
  · rcases mem_spoken_cases hspoken with ⟨_, _, hm⟩ | ⟨_, hm⟩ <;> cases hm
  · split at hlast
    · cases hlast
    · rename_i hover
      rw [List.mem_singleton, Moment.answered.injEq] at hlast
      exact ⟨hlast.symm, fun h => hover (hlast ▸ h)⟩

/-- The calls that the plugin makes are those of `certEnsure`. -/
theorem made_mem {t id : ℕ} {e : Event} (h : (t, .made id e) ∈ inv.moments) :
    e ∈ (certEnsure inv.N inv.C inv.rounds inv.directoryUrl inv.input inv.answers []).2 := by
  have hcourse : Moment.made id e ∈ course (certEnsure inv.N inv.C inv.rounds inv.directoryUrl inv.input inv.answers []) := by
    refine inv.plugin.subset (List.mem_filter.mpr ⟨?_, rfl⟩)
    exact List.mem_map_of_mem (f := Prod.snd) h
  rcases List.mem_append.mp hcourse with hspoken | hlast
  · exact mem_of_made hspoken
  · split at hlast
    · cases hlast
    · cases List.mem_singleton.mp hlast

/-- Until something final happens the invocation goes on. -/
theorem alive (hsub : before <+: inv.moments) (hfinal : ∀ m ∈ before, m.2.final = false) : Alive (inv.runner before) := by
  induction before using List.reverseRecOn with
  | nil => exact ⟨rfl, rfl, rfl, rfl, rfl⟩
  | append_singleton before m ih =>
    have ih := ih ((List.prefix_append _ _).trans hsub) fun x hx => hfinal x (by simp [hx])
    have hm := hfinal m (by simp)
    have hmem : m ∈ inv.moments := hsub.subset (by simp)
    rw [runner_concat]
    rcases m with ⟨t, moment⟩
    cases moment with
    | made id e =>
      cases hcall : hostCall e.call with
      | none => simpa [Moment.childEvent, hcall] using ih
      | some c =>
        simp only [Moment.childEvent, hcall, Option.map_some]
        refine ih.step_hostCall (proper_hostCall hcall fun name certPem keyPem certMeta hstore => ?_)
        have hplaces : Places (fun c => isStore c = true) (certEnsure inv.N inv.C inv.rounds inv.directoryUrl inv.input)
          (StoresAtEnd inv.N inv.C inv.input) := certEnsure_places _
        obtain ⟨front, back, htrace⟩ := List.append_of_mem (made_mem hmem)
        obtain ⟨-, _, _, _, rfl, -⟩ := hplaces inv.answers [] front e back htrace (by rw [hstore]; rfl)
        cases hstore
        exact Json.Proper.plain (by simp [Obj.keys]) (by simp [Obj.keys]; decide) (by simp [proper_texts])
    | settled e => exact ih
    | answered progress => cases hm
    | happened e => exact ih.step_outside (inv.outside t e hmem) hm

/-- What is final is reported. -/
theorem reported (h : Alive (inv.runner before)) (hmem : m ∈ inv.moments) (hfinal : m.2.final = true) :
    (inv.runner (before ++ [m])).settled.isSome := by
  rw [runner_concat]
  rcases m with ⟨t, moment⟩
  cases moment with
  | made id e => cases hfinal
  | settled e => cases hfinal
  | answered progress =>
    obtain ⟨-, hover⟩ := answered_mem hmem
    cases hresult : resultMessage inv.callId progress with
    | none =>
      cases progress with
      | returned _ => cases hresult
      | threw e => cases hresult
      | running => exact absurd rfl hover
    | some message =>
      simp only [Moment.childEvent, hresult, Option.map_some]
      exact h.step_result hresult
  | happened e => exact h.step_ends hfinal

end Invocation

section NothingUp

variable {before : List (ℕ × Moment)} {m : ℕ × Moment}

theorem NothingUp.concat (h : NothingUp before) (hm : ∀ e, m.2 ≠ .settled e) : NothingUp (before ++ [m]) := by
  intro earlier t zone record rest heq
  rcases History.append_singleton_eq heq with ⟨-, hlast, -⟩ | ⟨rest', rfl, hbefore⟩
  · exact absurd (congrArg Prod.snd hlast).symm (hm _)
  · obtain ⟨t', id, o, hmem⟩ := h earlier t zone record rest' hbefore
    exact ⟨t', id, o, by simp [hmem]⟩

theorem NothingUp.of_concat (h : NothingUp (before ++ [m])) (hm : ∀ id e, m.2 ≠ .made id e) : NothingUp before := by
  intro earlier t zone record rest heq
  obtain ⟨t', id, o, hmem⟩ := h earlier t zone record (rest ++ [m]) (by simp [heq])
  rcases List.mem_append.mp hmem with hmem | hlast
  · exact ⟨t', id, o, hmem⟩
  · exact absurd (congrArg Prod.snd (List.mem_singleton.mp hlast)).symm (hm _ _)

end NothingUp

/-- When the plugin has answered, it has taken down every record. -/
theorem Invocation.nothingUp_of_answered {inv : Invocation} {before after : List (ℕ × Moment)} {t : ℕ} {progress : Progress Unit}
    (hmoments : inv.moments = before ++ (t, .answered progress) :: after) : NothingUp before := by
  have htidy : Tidy (certEnsure inv.N inv.C inv.rounds inv.directoryUrl inv.input) := certEnsure_tidy _
  have hmem : (t, .answered progress) ∈ inv.moments := by simp [hmoments]
  have hover := Invocation.answered_mem hmem
  obtain ⟨rest, hcourse⟩ := inv.plugin
  rw [hmoments] at hcourse
  -- all that the plugin did before it answered are the calls of `certEnsure`
  have hspoken : (before.map Prod.snd).filter Moment.isPlugin =
      spoken 1 (certEnsure inv.N inv.C inv.rounds inv.directoryUrl inv.input inv.answers []).2 := by
    rw [course] at hcourse
    split at hcourse
    · rename_i hrunning
      exact absurd (hover.1.symm.trans hrunning) hover.2
    · rw [List.map_append, List.filter_append, List.append_assoc, List.map_cons, List.filter_cons_of_pos rfl] at hcourse
      rcases History.cases_of_eq hcourse.symm with ⟨_, hinside, _⟩ | ⟨heq, _, _⟩ | hafter
      · have hspoken : Moment.answered progress ∈
            spoken 1 (certEnsure inv.N inv.C inv.rounds inv.directoryUrl inv.input inv.answers []).2 := by simp [hinside]
        rcases mem_spoken_cases hspoken with ⟨_, _, hm⟩ | ⟨_, hm⟩ <;> cases hm
      · exact heq
      · cases hafter
  intro earlier t' zone record later heq
  have hpieces : spoken 1 (certEnsure inv.N inv.C inv.rounds inv.directoryUrl inv.input inv.answers []).2 =
      (earlier.map Prod.snd).filter Moment.isPlugin ++ .settled ⟨.dnsSetRecord zone record, some (.ok ())⟩ ::
        (later.map Prod.snd).filter Moment.isPlugin := by
    rw [← hspoken, heq, List.map_append, List.filter_append, List.map_cons, List.filter_cons_of_pos rfl]
  obtain ⟨front, back, id', htrace, hlater⟩ := spoken_settled hpieces
  rcases htidy.deleted inv.answers htrace with ⟨between, o, rest', rfl, -⟩ | ⟨hrunning, -⟩
  · obtain ⟨id, hid⟩ := mem_spoken (e := ⟨.dnsDeleteRecord zone record, o⟩)
      (show _ ∈ between ++ ⟨.dnsDeleteRecord zone record, o⟩ :: rest' by simp) id'
    rw [← hlater] at hid
    obtain ⟨⟨t'', _⟩, hmem, rfl⟩ := List.mem_map.mp (List.mem_filter.mp hid).1
    exact ⟨t'', id, o, hmem⟩
  · exact absurd (hover.1.symm.trans hrunning) hover.2

/-- **Records that are taken down in time.** When the result of an invocation is reported, each record that was published has
been taken down exactly when nothing ended the invocation from outside while a record was up: not the timer after 30 seconds,
not the exit of the child, not a stream that broke. -/
theorem cleansUp_iff (inv : Invocation) : CleansUp inv ↔ Undisturbed inv := by
  constructor
  · intro h before t e after hmoments hends hfinal
    have halive : Alive (inv.runner before) := Invocation.alive ⟨_, hmoments.symm⟩ hfinal
    have hreported : (inv.runner (before ++ [(t, .happened e)])).settled.isSome :=
      Invocation.reported halive (by simp [hmoments]) hends
    exact (h before _ after hmoments halive.settled hreported).of_concat fun _ _ h => nomatch h
  · intro h before m after hmoments hopen hreported
    have hfinal : ∀ x ∈ before, x.2.final = false := by
      cases hfind : before.find? fun x => x.2.final with
      | none => simpa using hfind
      | some x =>
        -- the first of them would have been reported already
        obtain ⟨hx, front, back, rfl, hfront⟩ := List.find?_eq_some_iff_append.mp hfind
        have halive : Alive (inv.runner front) :=
          Invocation.alive ⟨x :: back ++ m :: after, by simp [hmoments]⟩ (by simpa using hfront)
        have hearlier := Invocation.settled_append (Invocation.reported halive (m := x) (by simp [hmoments]) hx) back
        rw [List.append_assoc, List.singleton_append, hopen] at hearlier
        cases hearlier
    have hlast : m.2.final = true := by
      by_contra hnot
      have halive : Alive (inv.runner (before ++ [m])) :=
        Invocation.alive ⟨after, by simp [hmoments]⟩ fun x hx => by
          rcases List.mem_append.mp hx with hx | hx
          · exact hfinal x hx
          · rw [List.mem_singleton.mp hx]
            simpa using hnot
      rw [halive.settled] at hreported
      cases hreported
    rcases m with ⟨t, moment⟩
    cases moment with
    | happened e => exact (h before t e after hmoments hlast hfinal).concat fun _ h => nomatch h
    | answered progress => exact (Invocation.nothingUp_of_answered hmoments).concat fun _ h => nomatch h
    | made id e => cases hlast
    | settled e => cases hlast

/-! ### A record that takes its time -/

section Late

/-- Keys and signatures of an example. -/
def exampleCrypto : Crypto where
  PublicKey := Unit
  PrivateKey := Unit
  createPublicKey _ := .ok ()
  createPrivateKey _ := .ok ()
  jwk _ := .ok (some (js "x"), some (js "y"))
  spki _ := []
  sha256 _ := []
  sign _ _ := .ok [0x30, 6, 2, 1, 1, 2, 1, 1]

/-- What the ACME server has at a URL: an order with one authorization, which is pending. -/
def exampleBody (url : Value) : JsString :=
  if Value.strictEq url (.str (js "/authz")) then js "\x7b\"status\":\"pending\",\"identifier\":\x7b\"value\":\"example.tld\"\x7d," ++
    js "\"challenges\":[\x7b\"type\":\"dns-01\",\"url\":\"/chal\",\"token\":\"t\"\x7d]\x7d"
  else if Value.strictEq url (.str (js "/order")) then js "\x7b\"authorizations\":[\"/authz\"],\"finalize\":\"/fin\"\x7d"
  else js "\x7b\"newNonce\":\"/nonce\",\"newAccount\":\"/account\",\"newOrder\":\"/order\"\x7d"

/-- The record is published, and cannot be seen yet: each look at it is answered with nothing, and each pause takes the two
seconds that it is for. -/
def slowAnswers : Answers Call Answer := fun before c =>
  match c with
  | .http _ url _ => some (.ok ⟨.finite 200, [(js "replay-nonce", js "n"), (js "location", js "/1")], exampleBody url⟩)
  | .secretsGet _ => some (.ok none)
  | .generateAccountKeyPair | .generateCertKeyPair => some (.ok ⟨js "public", js "private"⟩)
  | .resolveTxt _ => some (.ok [])
  | .now => some (.ok (.finite (Decimal.ofNat (2000 * before.countP fun e => match e.call with | .sleep _ => true | _ => false))))
  | .secretsPut _ _ | .dnsSetRecord _ _ | .dnsDeleteRecord _ _ | .dnsQuery _ _ _ | .certsStore _ _ _ _ | .sleep _ => some (.ok ())

/-- `certEnsure` up to the fifteenth pause. -/
def slowRun : Progress Unit × List Event :=
  certEnsure Numerals.exact exampleCrypto 15 (js "/dir") ⟨js "example.tld", [js "example.tld"], js "wildcard"⟩ slowAnswers []

/-- The time a call takes. -/
def pause : Moment → ℕ
  | .settled ⟨.sleep ms, _⟩ => ms
  | _ => 0

/-- Moments with their times, of which the first is at `now` unless it is the end of a pause. -/
def clocked : ℕ → List Moment → List (ℕ × Moment)
  | _, [] => []
  | now, m :: ms => (now + pause m, m) :: clocked (now + pause m) ms

theorem map_clocked (now : ℕ) (ms : List Moment) : (clocked now ms).map Prod.snd = ms := by
  induction ms generalizing now with
  | nil => rfl
  | cons m ms ih => rw [clocked, List.map_cons, ih]

/-- The timer fires while the fifteenth pause ends. -/
def lateMoments : List (ℕ × Moment) := clocked 0 (spoken 1 slowRun.2) ++ [(wallMs, .happened .timeout)]

theorem of_mem_lateMoments {t : ℕ} {e : ChildEvent} (h : (t, .happened e) ∈ lateMoments) : t = wallMs ∧ e = .timeout := by
  rcases List.mem_append.mp h with h | h
  · have hspoken : Moment.happened e ∈ spoken 1 slowRun.2 := by
      rw [← map_clocked 0 (spoken 1 slowRun.2)]
      exact List.mem_map_of_mem (f := Prod.snd) h
    rcases mem_spoken_cases hspoken with ⟨_, _, hm⟩ | ⟨_, hm⟩ <;> cases hm
  · cases List.mem_singleton.mp h
    exact ⟨rfl, rfl⟩

/-- An issue whose record cannot be seen within 30 seconds. -/
def late (job : InvocationJob) : Invocation where
  N := Numerals.exact
  C := exampleCrypto
  directoryUrl := js "/dir"
  input := ⟨js "example.tld", [js "example.tld"], js "wildcard"⟩
  answers := slowAnswers
  rounds := 15
  job := job
  callId := js "call-1"
  moments := lateMoments
  plugin := by
    have hplugin : (spoken 1 slowRun.2).filter Moment.isPlugin = spoken 1 slowRun.2 := by
      refine List.filter_eq_self.mpr fun m hm => ?_
      rcases mem_spoken_cases hm with ⟨_, _, rfl⟩ | ⟨_, rfl⟩ <;> rfl
    rw [lateMoments, List.map_append, map_clocked, List.filter_append, hplugin]
    change spoken 1 slowRun.2 ++ [] <+: _
    rw [List.append_nil]
    exact List.prefix_append _ _
  outside := by
    intro t e h
    obtain ⟨-, rfl⟩ := of_mem_lateMoments h
    trivial
  ordered := by decide +kernel
  timer := fun t h => (of_mem_lateMoments h).1.ge

/-- The calls among these moments are those of the plugin's run. -/
theorem mem_slowRun_of_late {t id : ℕ} {e : Event} (h : (t, .made id e) ∈ lateMoments) : e ∈ slowRun.2 :=
  (late ⟨js "invocation-1", js "cert-letsencrypt-dns01"⟩).made_mem h

/-- The record is up when the timer fires: the invocation is reported as timed out, and nothing has taken the record down. -/
theorem not_cleansUp_late : ¬ CleansUp (late ⟨js "invocation-1", js "cert-letsencrypt-dns01"⟩) := by
  intro h
  have hpublished : (slowRun.2.filterMap published).length = 1 := by decide +kernel
  have hretracted : slowRun.2.all (fun e => (retracted e).isNone) = true := by decide +kernel
  obtain ⟨⟨zone, record⟩, hup⟩ := List.exists_mem_of_length_pos (hpublished ▸ Nat.one_pos)
  obtain ⟨e, he, hsome⟩ := List.mem_filterMap.mp hup
  cases published_eq_some hsome
  -- the outcome of `dns.setRecord` has reached the plugin
  have hsettled := settled_mem_spoken he rfl 1
  rw [← map_clocked 0 (spoken 1 slowRun.2)] at hsettled
  obtain ⟨⟨t, _⟩, hmem, rfl⟩ := List.mem_map.mp hsettled
  obtain ⟨earlier, later, heq⟩ := List.append_of_mem hmem
  have hquiet : ∀ m ∈ clocked 0 (spoken 1 slowRun.2), m.2.final = false := by
    intro m hm
    have hspoken : m.2 ∈ spoken 1 slowRun.2 := by
      rw [← map_clocked 0 (spoken 1 slowRun.2)]
      exact List.mem_map_of_mem (f := Prod.snd) hm
    rcases mem_spoken_cases hspoken with ⟨_, _, hm⟩ | ⟨_, hm⟩ <;> rw [hm] <;> rfl
  have halive : Alive ((late ⟨js "invocation-1", js "cert-letsencrypt-dns01"⟩).runner (clocked 0 (spoken 1 slowRun.2))) :=
    Invocation.alive (List.prefix_append _ _) hquiet
  have hreported := Invocation.reported (m := (wallMs, .happened .timeout)) halive (by simp [late, lateMoments]) rfl
  have hdown := h _ _ [] rfl halive.settled hreported
  obtain ⟨t', id, o, hdelete⟩ := hdown earlier t zone record (later ++ [(wallMs, .happened .timeout)]) (by simp [heq])
  -- but `dns.deleteRecord` is not among the calls
  have hmade : (t', .made id ⟨.dnsDeleteRecord zone record, o⟩) ∈ lateMoments := by
    rw [lateMoments, heq, List.append_assoc]
    exact List.mem_append_right _ (List.mem_cons_of_mem _ hdelete)
  cases List.all_eq_true.mp hretracted _ (mem_slowRun_of_late hmade)

end Late

end Wanfw.Plugins.CertLetsencrypt
