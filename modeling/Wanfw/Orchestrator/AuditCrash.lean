import Wanfw.Orchestrator.AuditChain
import Wanfw.Schemas.BundleHash

/-!
# Torn writes of the audit log

A write of a line can be cut off, by a crash or because it fails, and leave a part of the
line at the end of the file. The next start drops that part, and so does `readAll` as long
as it stands at the end. But `append` writes behind whatever is there: after a torn write
the next line continues the torn one, and both are lost.

`returned_entries_survive`: in a run in which every `append` finds a file that is empty or
ends with a line break, everything `append` returned is read back in order and verifies,
after any number of restarts, crashes and failed writes.
-/

namespace Wanfw.Orchestrator

open Wanfw.Js Wanfw.Schemas

/-- A log file, what the process remembers, and the entries `append` has returned. -/
structure LogState where
  file : JsString
  cursor : Cursor
  returned : List AuditEntry

/-- What can happen to a log. -/
inductive LogOp where
  /-- `append` returns. -/
  | append (ts : JsString) (input : AuditEntryInput)
  /-- The write of `append` fails after a part of the line; the process goes on. -/
  | fail (ts : JsString) (input : AuditEntryInput) (text : JsString)
  /-- The process stops in the write, after a part of the line, and is started again. -/
  | crash (ts : JsString) (input : AuditEntryInput) (text : JsString)
  /-- The process is started again. -/
  | restart

section Runs

variable {κ : Type} (N : Numerals) (sha256 : List UInt8 → JsString) (S : SignatureScheme κ) (key : κ)

/-- The constructor, on a file. -/
def LogState.reopen (file : JsString) (returned : List AuditEntry) : Option LogState :=
  (resume N file).map fun cursor => ⟨file, cursor, returned⟩

/-- One step. A failed write has counted, but not moved on the last hash. -/
def LogState.step (s : LogState) : LogOp → Option LogState
  | .append ts input =>
    let entry := s.cursor.entry sha256 S key ts input
    some ⟨s.file ++ (entry.line ++ [10]), ⟨entry.seq, entry.hash⟩, s.returned ++ [entry]⟩
  | .fail _ _ text => some ⟨s.file ++ text, ⟨s.cursor.seq + 1, s.cursor.lastHash⟩, s.returned⟩
  | .crash _ _ text => LogState.reopen N (s.file ++ text) s.returned
  | .restart => LogState.reopen N s.file s.returned

/-- A run from a new file. -/
def runLog (ops : List LogOp) : Option LogState :=
  ops.foldlM (LogState.step N sha256 S key) ⟨[], Cursor.start, []⟩

/-- An `append` that returns. -/
def LogOp.returns : LogOp → Bool
  | .append _ _ => true
  | _ => false

/-- A torn write leaves a part of the line that was to be written. -/
def LogOp.Possible (s : LogState) : LogOp → Prop
  | .fail ts input text => Torn (s.cursor.entry sha256 S key ts input).line text
  | .crash ts input text => Torn (s.cursor.entry sha256 S key ts input).line text
  | _ => True

/-- A step that writes finds an empty file, or one that ends with a line break. -/
def LogOp.OnWholeLines (s : LogState) : LogOp → Prop
  | .restart => True
  | _ => s.file = [] ∨ s.file.getLast? = some 10

/-- What `append` returned is read back in order, and the log verifies. -/
def LogState.Survives (s : LogState) : Prop :=
  (s.returned.map AuditEntry.toJson).Sublist (readAll N s.file) ∧ VerifiesAs sha256 S N key s.file

/-- The file is the lines of some entries and perhaps a torn one. -/
structure LogState.Holds (s : LogState) (es : List AuditEntry) (tail : JsString) : Prop where
  file : s.file = logText es ++ tail
  torn : tail = [] ∨ ∃ e, Torn e.line tail ∧ Chained sha256 genesisHash (es ++ [e]) ∧ e.SignedBy S key
  chained : Chained sha256 genesisHash es
  signed : ∀ e ∈ es, e.SignedBy S key
  returned : s.returned.Sublist es
  cursor : tail = [] → s.cursor.lastHash = (Cursor.after es).lastHash

variable {N sha256 S key} {s : LogState} {es : List AuditEntry} {tail : JsString}

theorem runLog_concat (pre : List LogOp) (op : LogOp) :
    runLog N sha256 S key (pre ++ [op]) = (runLog N sha256 S key pre).bind fun s => s.step N sha256 S key op := by
  rw [runLog, List.foldlM_append]
  simp only [List.foldlM_cons, List.foldlM_nil, bind_pure]
  rfl

/-- Only the appends that return add to what was returned. -/
theorem length_returned {ops : List LogOp} (h : runLog N sha256 S key ops = some s) :
    s.returned.length = ops.countP LogOp.returns := by
  induction ops using List.reverseRecOn generalizing s with
  | nil =>
    cases h
    rfl
  | append_singleton ops op ih =>
    rw [runLog_concat] at h
    obtain ⟨s₀, hs₀, hstep⟩ := Option.bind_eq_some_iff.mp h
    rw [List.countP_append, ← ih hs₀]
    cases op with
    | append ts input =>
      cases hstep
      exact List.length_append
    | fail ts input text =>
      cases hstep
      rfl
    | crash ts input text =>
      obtain ⟨cursor, -, rfl⟩ := Option.map_eq_some_iff.mp hstep
      rfl
    | restart =>
      obtain ⟨cursor, -, rfl⟩ := Option.map_eq_some_iff.mp hstep
      rfl

theorem possible_of_returns {op : LogOp} (h : op.returns = true) (s : LogState) : op.Possible sha256 S key s := by
  cases op with
  | append ts input => trivial
  | _ => cases h

/-- A step finds whole lines where all the steps before it are appends that returned. -/
theorem onWholeLines_of_returns {pre : List LogOp} (hpre : ∀ op ∈ pre, op.returns = true)
    (hs : runLog N sha256 S key pre = some s) (op : LogOp) : op.OnWholeLines s := by
  have hfile : s.file = [] ∨ s.file.getLast? = some 10 := by
    rcases List.eq_nil_or_concat' pre with rfl | ⟨before, last, rfl⟩
    · cases hs
      exact .inl rfl
    · have hlast := hpre last List.mem_concat_self
      rw [runLog_concat] at hs
      obtain ⟨s₀, -, hstep⟩ := Option.bind_eq_some_iff.mp hs
      cases last with
      | append ts input =>
        cases hstep
        exact .inr (by rw [← List.append_assoc, List.getLast?_concat])
      | _ => cases hlast
  cases op with
  | restart => trivial
  | _ => exact hfile

/-- The entries that are read: those of the whole lines, and the torn one if only its line break is missing. -/
theorem LogState.Holds.readAll (h : s.Holds sha256 S key es tail) :
    ∃ es', readAll N s.file = es'.map AuditEntry.toJson ∧ Chained sha256 genesisHash es' ∧
      (∀ e ∈ es', e.SignedBy S key) ∧ es.Sublist es' ∧ (tail = [] → es' = es) := by
  rw [h.file, readAll_text_append]
  rcases h.torn with rfl | ⟨e, htorn, hchain, hsigned⟩
  · exact ⟨es, by rw [readAll_nil, List.append_nil], h.chained, h.signed, .refl _, fun _ => rfl⟩
  · rcases readAll_torn (N := N) htorn with ⟨-, hread⟩ | ⟨htail, hread⟩
    · exact ⟨es, by rw [hread, List.append_nil], h.chained, h.signed, .refl _, fun _ => rfl⟩
    · refine ⟨es ++ [e], by rw [hread, List.map_append, List.map_singleton], hchain, ?_, List.sublist_append_left _ _, ?_⟩
      · intro x hx
        rcases List.mem_append.mp hx with hx | hx
        · exact h.signed x hx
        · rw [List.mem_singleton.mp hx]
          exact hsigned
      · intro hnil
        obtain ⟨t, ht⟩ := e.line_eq_cons
        rw [← htail, hnil] at ht
        cases ht

theorem LogState.Holds.survives (h : s.Holds sha256 S key es tail) : s.Survives N sha256 S key := by
  obtain ⟨es', hread, hchain, hsigned, hsub, -⟩ := h.readAll (N := N)
  refine ⟨?_, (verifiesAs_iff hread).mpr ⟨hchain, hsigned⟩⟩
  rw [hread]
  exact (h.returned.trans hsub).map _

/-- The constructor on a file that holds entries. -/
theorem LogState.Holds.reopen (h : s.Holds sha256 S key es tail) :
    ∃ s', LogState.reopen N s.file s.returned = some s' ∧ s'.Holds sha256 S key es tail := by
  obtain ⟨es', hread, -, -, -, hnil⟩ := h.readAll (N := N)
  refine ⟨⟨s.file, Cursor.after es', s.returned⟩, by rw [LogState.reopen, resume_eq hread]; rfl, ?_⟩
  exact ⟨h.file, h.torn, h.chained, h.signed, h.returned, fun ht => by rw [hnil ht]⟩

/-- Nothing is torn in a file that ends with a line break. -/
theorem LogState.Holds.tail_eq_nil (h : s.Holds sha256 S key es tail)
    (hwhole : s.file = [] ∨ s.file.getLast? = some 10) : tail = [] := by
  rcases h.torn with htail | ⟨e, htorn, -⟩
  · exact htail
  · by_contra hne
    rw [h.file] at hwhole
    rcases hwhole with hnil | hlast
    · exact hne (List.append_eq_nil_iff.mp hnil).2
    · rw [List.getLast?_append_of_ne_nil _ hne] at hlast
      have hmem := List.mem_of_getLast? hlast
      rcases htorn with hpre | ⟨p, hp, rfl⟩
      · exact e.newline_not_mem_line (hpre.subset hmem)
      · rw [List.getLast?_concat] at hlast
        cases hlast

/-- A torn write behind whole lines. -/
theorem LogState.Holds.tear (h : s.Holds sha256 S key es []) {ts : JsString} {input : AuditEntryInput} {text : JsString}
    (htorn : Torn (s.cursor.entry sha256 S key ts input).line text) (seq : ℕ) :
    LogState.Holds sha256 S key ⟨s.file ++ text, ⟨seq, s.cursor.lastHash⟩, s.returned⟩ es text := by
  obtain ⟨hchain, hsigned⟩ := chained_append (S := S) key h.chained (h.cursor rfl) ts input
  refine ⟨?_, .inr ⟨_, htorn, hchain, hsigned⟩, h.chained, h.signed, h.returned, fun _ => h.cursor rfl⟩
  rw [h.file, List.append_nil]

/-- **One step.** -/
theorem LogState.Holds.step (h : s.Holds sha256 S key es tail) {op : LogOp} (hpossible : op.Possible sha256 S key s)
    (hwhole : op.OnWholeLines s) :
    ∃ s' es' tail', s.step N sha256 S key op = some s' ∧ s'.Holds sha256 S key es' tail' := by
  cases op with
  | append ts input =>
    obtain rfl := h.tail_eq_nil hwhole
    obtain ⟨hchain, hsigned⟩ := chained_append (S := S) key h.chained (h.cursor rfl) ts input
    refine ⟨_, es ++ [s.cursor.entry sha256 S key ts input], [], rfl, ?_, .inl rfl, hchain, ?_, ?_, ?_⟩
    · rw [h.file, logText_concat, List.append_nil, List.append_nil]
    · intro x hx
      rcases List.mem_append.mp hx with hx | hx
      · exact h.signed x hx
      · rw [List.mem_singleton.mp hx]
        exact hsigned
    · exact h.returned.append (.refl _)
    · intro _
      rw [Cursor.after_concat]
  | fail ts input text =>
    obtain rfl := h.tail_eq_nil hwhole
    exact ⟨_, es, text, rfl, h.tear hpossible _⟩
  | crash ts input text =>
    obtain rfl := h.tail_eq_nil hwhole
    obtain ⟨s', hs', hholds⟩ := (h.tear hpossible 0).reopen (N := N)
    exact ⟨s', es, text, hs', hholds⟩
  | restart =>
    obtain ⟨s', hs', hholds⟩ := h.reopen (N := N)
    exact ⟨s', es, tail, hs', hholds⟩

variable (N sha256 S key) in
/-- **The audit log survives torn writes as long as nothing is appended behind one.** In every run in which each
`append`, also one that is torn, finds a file that is empty or ends with a line break, every state reached has
in its file, in order, all entries that `append` returned, and verifies. -/
theorem returned_entries_survive (ops : List LogOp)
    (hpossible : ∀ pre op, pre ++ [op] <+: ops → ∀ s, runLog N sha256 S key pre = some s → op.Possible sha256 S key s)
    (hwhole : ∀ pre op, pre ++ [op] <+: ops → ∀ s, runLog N sha256 S key pre = some s → op.OnWholeLines s) :
    ∀ pre, pre <+: ops → ∃ s, runLog N sha256 S key pre = some s ∧ s.Survives N sha256 S key := by
  have hholds : ∀ pre, pre <+: ops → ∃ s es tail, runLog N sha256 S key pre = some s ∧ s.Holds sha256 S key es tail := by
    intro pre hinit
    induction pre using List.reverseRecOn with
    | nil => exact ⟨_, [], [], rfl, rfl, .inl rfl, trivial, by simp, .refl _, fun _ => rfl⟩
    | append_singleton pre op ih =>
      obtain ⟨s, es, tail, hs, hholds⟩ := ih ((List.prefix_append pre [op]).trans hinit)
      obtain ⟨s', es', tail', hs', hholds'⟩ := hholds.step (N := N) (hpossible pre op hinit s hs) (hwhole pre op hinit s hs)
      refine ⟨s', es', tail', ?_, hholds'⟩
      rw [runLog_concat, hs]
      exact hs'
  intro pre hinit
  obtain ⟨s, es, tail, hs, hholds⟩ := hholds pre hinit
  exact ⟨s, hs, hholds.survives⟩

end Runs

/-! ### A crash after the first unit of a line -/

/-- An entry without details. -/
def plainInput : AuditEntryInput :=
  .texts (js "log.emit") [] AuditEntryInput.no_fields_nodup AuditEntryInput.no_fields_plain

/-- The write of an entry stops after one unit. -/
def crashOp : LogOp := .crash (js "2025-01-01T00:00:00.000Z") plainInput (js "\x7b")

theorem crashOp_possible {κ : Type} (sha256 : List UInt8 → JsString) (S : SignatureScheme κ) (key : κ) (s : LogState) :
    crashOp.Possible sha256 S key s := by
  obtain ⟨t, ht⟩ := (s.cursor.entry sha256 S key (js "2025-01-01T00:00:00.000Z") plainInput).line_eq_cons
  refine .inl ?_
  rw [ht]
  exact ⟨t, rfl⟩

/-- Two entries are written. -/
def twoAppends : List LogOp :=
  [.append (js "2024-12-31T23:59:58.000Z") plainInput, .append (js "2024-12-31T23:59:59.000Z") plainInput]

theorem returns_of_mem_twoAppends {op : LogOp} (h : op ∈ twoAppends) : op.returns = true := by
  simp only [twoAppends, List.mem_cons, List.not_mem_nil, or_false] at h
  rcases h with rfl | rfl
  · rfl
  · rfl

/-- Two entries are written, and the write of the third stops: the two that `append` returned are still there. -/
theorem first_crash_survived :
    ∃ s, runLog Numerals.exact sampleSha sampleScheme (js "key") (twoAppends ++ [crashOp]) = some s ∧
      s.returned.length = 2 ∧ s.Survives Numerals.exact sampleSha sampleScheme (js "key") := by
  have hbefore : ∀ pre op, pre ++ [op] <+: twoAppends ++ [crashOp] → ∀ o ∈ pre, o.returns = true := by
    intro pre op hinit o ho
    refine returns_of_mem_twoAppends ?_
    rcases List.prefix_concat_iff.mp hinit with heq | hinit
    · exact (List.append_inj_left' heq rfl) ▸ ho
    · exact hinit.subset (List.mem_append_left _ ho)
  obtain ⟨s, hs, hsurvives⟩ : ∃ s, runLog Numerals.exact sampleSha sampleScheme (js "key") (twoAppends ++ [crashOp]) = some s ∧
      s.Survives Numerals.exact sampleSha sampleScheme (js "key") := by
    refine returned_entries_survive Numerals.exact sampleSha sampleScheme (js "key") _ ?_ ?_ _ List.prefix_rfl
    · intro pre op hinit s _
      rcases List.mem_append.mp (hinit.subset List.mem_concat_self) with hop | hop
      · exact possible_of_returns (returns_of_mem_twoAppends hop) s
      · rw [List.mem_singleton.mp hop]
        exact crashOp_possible _ _ _ s
    · intro pre op hinit s hs
      exact onWholeLines_of_returns (hbefore pre op hinit) hs op
  exact ⟨s, hs, length_returned hs, hsurvives⟩

/-- After the crash the next entry is written behind the rest of the torn line, and is lost. -/
theorem append_after_crash_lost :
    crashOp.Possible sampleSha sampleScheme (js "key") ⟨[], Cursor.start, []⟩ ∧
    ∃ s, runLog Numerals.exact sampleSha sampleScheme (js "key")
        [crashOp, .append (js "2025-01-01T00:00:01.000Z") plainInput] = some s ∧
      ¬ s.Survives Numerals.exact sampleSha sampleScheme (js "key") := by
  refine ⟨crashOp_possible _ _ _ _, ?_⟩
  have hglued : ∀ e : AuditEntry, readAll Numerals.exact (123 :: (e.line ++ [10])) = [] := by
    intro e
    have hmem : (10 : UInt16) ∉ 123 :: e.line := by
      rw [List.mem_cons, not_or]
      exact ⟨by decide, e.newline_not_mem_line⟩
    obtain ⟨t, ht⟩ := e.line_eq_cons
    have hnone : parse Numerals.exact (123 :: e.line) = none := by
      rw [ht]
      rfl
    rw [readAll_eq, ← List.cons_append, split_append_cons hmem, List.flatMap_cons, readLine_of_parse_none hnone]
    rfl
  have hrun : ∀ e, e = Cursor.start.entry sampleSha sampleScheme (js "key") (js "2025-01-01T00:00:01.000Z") plainInput →
      runLog Numerals.exact sampleSha sampleScheme (js "key")
        [crashOp, .append (js "2025-01-01T00:00:01.000Z") plainInput] =
        some ⟨123 :: (e.line ++ [10]), ⟨e.seq, e.hash⟩, [e]⟩ := by
    rintro _ rfl
    rfl
  refine ⟨_, hrun _ rfl, fun h => ?_⟩
  have hsub := h.1
  rw [hglued] at hsub
  exact absurd hsub.length_le (by simp)

end Wanfw.Orchestrator
