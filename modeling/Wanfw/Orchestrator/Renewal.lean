import Wanfw.Js.Values
import Wanfw.Orchestrator.Plan

/-!
# RENEWAL over many runs

`reconciler/renewal-stage.ts` with what it is given: the metadata of the stored
certificate, whatever its issuer wrote as `names`, the renewal state on disk, the issuer
and a clock that is read up to three times (`renewalRun`). `renewalStage_eq`: the stage of
the pipeline is this one, for names that are texts and a clock that stands still.

`reconcile` runs it against the renewal state that was last written. Between two
attempts names, certificates, bindings and answers may change at will; what paces the
attempts is the one state they share (`Recorded`).
-/

namespace Wanfw.Orchestrator

open Wanfw.Js

/-! ### The stored certificate -/

/-- What `readCertMeta` returns: `storeCert` sets `storedAt`, and takes over `names` as it came. -/
structure CertMeta where
  storedAt : JsString
  names : Value
  stored : storedAt ≠ []

/-- `[...meta.names]`. -/
def spreadNames : Value → Except JsError (List Json)
  | some (.arr xs) => .ok xs
  | some (.str s) => .ok ((codePoints s).map .str)
  | _ => .error (.typeError (js "meta.names is not iterable"))

/-- `xs.sort()`: by the texts of the items, which are not looked at when there is nothing to compare. -/
def sortItems (xs : List Json) : Except JsError (List Json) :=
  if xs.length < 2 then .ok xs
  else do
    let texts ← xs.mapM Value.jsonToText
    return (sortBy (fun a b => compareOrder a.1 b.1) (texts.zip xs)).map (·.2)

/-- `[...meta.names].sort().join(",")`. -/
def namesText (names : Value) : Except JsError JsString := do
  let items ← spreadNames names
  let sorted ← sortItems items
  return join (← Value.itemsToText sorted) (js ",")

/-- `namesMatch`. -/
def namesMatch (certMeta : Option CertMeta) (names : List JsString) : Except JsError Bool :=
  match certMeta with
  | none => .ok false
  | some m => do return (← namesText m.names) == join (sortStrings names) (js ",")

/-! ### The stage -/

section Stage

variable {σ : Type}

/-- `RenewalStageDeps`, with the binding of the role and the flag of the run. -/
structure RenewalDeps (σ : Type) where
  certIssuer : Act σ (Option JsString)
  /-- `invokePlugin(id, "cert.ensure", { certName, names, zone })`: the invoker answers, it does not reject. -/
  invokePlugin : JsString → List JsString → Option JsString → Act σ (Answer Unit)
  readRenewalState : Act σ RenewalState
  writeRenewalState : RenewalState → Act σ Unit
  readCertMeta : Act σ (Option CertMeta)
  onCertChange : Act σ Unit
  now : Act σ ℤ
  degrade : StageError → Act σ Unit

/-- The reading `t` of the clock, and which certificate is stored. -/
def Env.reading (env : Env) (t : ℤ) (certMeta : Option CertMeta) : Env :=
  { env with now := t, certMeta := certMeta.map fun m => (m.storedAt, []) }

/-- An attempt that is due: the invocation, and what is written down about it. -/
def attemptRenewal (env : Env) (deps : RenewalDeps σ) (names : List JsString) (zone : Option JsString)
    (state : RenewalState) (certIssuerId : JsString) : Act σ StageResult := do
  let answer ← deps.invokePlugin certIssuerId names zone
  let attemptedAt ← deps.now
  deps.writeRenewalState (renewalAfter (env.reading attemptedAt none) state answer)
  match answer with
  | .ok () =>
    deps.onCertChange
    return none
  | .error _ => return none

/-- The decision, and the attempt if it is due. -/
def decideRenewal (env : Env) (deps : RenewalDeps σ) (names : List JsString) (zone : Option JsString)
    (certMeta : Option CertMeta) (covered : Bool) (state : RenewalState) (certIssuerId : JsString) : Act σ StageResult := do
  let t ← deps.now
  if renewalDue (env.reading t certMeta) (certMeta.map (·.storedAt)) covered state then
    attemptRenewal env deps names zone state certIssuerId
  else return none

/-- `buildRenewalStage`'s `run`, for the names PLAN requires and the zone of the framework. -/
def renewalRun (env : Env) (deps : RenewalDeps σ) (names : List JsString) (zone : Option JsString) : Act σ StageResult :=
  if names = [] then pure none
  else do
    let certIssuer ← deps.certIssuer
    let certMeta ← deps.readCertMeta
    let covered ← Act.ofExcept (namesMatch certMeta names)
    let state ← deps.readRenewalState
    let t ← deps.now
    if isEscalated (env.reading t certMeta) (certMeta.map (·.storedAt)) then
      deps.degrade (degradedReason (env.reading t certMeta) names state)
    match truthy certIssuer with
    | none => return none
    | some certIssuerId => decideRenewal env deps names zone certMeta covered state certIssuerId

end Stage

/-! ### Names that are texts -/

/-- The value of a list of texts. -/
def textsValue (xs : List JsString) : Value := some (.arr (xs.map .str))

theorem itemsToText_str (xs : List JsString) : Value.itemsToText (xs.map .str) = .ok xs := by
  induction xs with
  | nil => rfl
  | cons x xs ih =>
    rw [List.map_cons, Value.itemsToText, Value.jsonToText, ih]
    · rfl
    · simp

theorem mapM_jsonToText_str (xs : List JsString) : (xs.map Json.str).mapM Value.jsonToText = .ok xs := by
  induction xs with
  | nil => rfl
  | cons x xs ih =>
    rw [List.map_cons, List.mapM_cons, Value.jsonToText, ih]
    rfl

theorem sortItems_str (xs : List JsString) : sortItems (xs.map .str) = .ok ((sortStrings xs).map .str) := by
  unfold sortItems
  split_ifs with hshort
  · rw [List.length_map] at hshort
    match xs with
    | [] => rfl
    | [x] => rfl
    | _ :: _ :: _ => simp at hshort
  · rw [mapM_jsonToText_str]
    have hzip : xs.zip (xs.map Json.str) = xs.map fun x => (x, Json.str x) := by
      have hids : (xs.map id).zip (xs.map Json.str) = xs.map fun x => (id x, Json.str x) := List.zip_map'
      rwa [List.map_id] at hids
    have hsort : (sortBy (fun a b : JsString × Json => compareOrder a.1 b.1) (xs.map fun x => (x, Json.str x))) =
        (sortStrings xs).map fun x => (x, Json.str x) :=
      (map_sortBy (fun x : JsString => (x, Json.str x)) (fun a b => compareOrder a.1 b.1) xs).symm
    show Except.ok _ = Except.ok _
    rw [hzip, hsort, List.map_map]
    rfl

theorem namesText_str (xs : List JsString) : namesText (textsValue xs) = .ok (join (sortStrings xs) (js ",")) := by
  show Except.bind (sortItems (xs.map .str)) _ = _
  rw [sortItems_str]
  show Except.bind (Value.itemsToText ((sortStrings xs).map .str)) _ = _
  rw [itemsToText_str]
  rfl

/-! ### The stage of the pipeline -/

/-- The stored certificate of a run, with the names as texts. -/
def Env.storedCert (env : Env) : Option CertMeta :=
  match env.certMeta with
  | none => none
  | some (storedAt, names) => if h : storedAt = [] then none else some ⟨storedAt, textsValue names, h⟩

/-- RENEWAL in the pipeline: the state and the binding are in the world, the clock stands still. -/
def Env.renewalDeps (env : Env) : RenewalDeps World where
  certIssuer := do return Obj.get (← Act.get).roles (js "certIssuer")
  invokePlugin id names zone := pure (env.certEnsure id names zone)
  readRenewalState := do return (← Act.get).renewal
  writeRenewalState state := Act.modify fun w => { w with renewal := state }
  readCertMeta := pure env.storedCert
  onCertChange := pure ()
  now := pure env.now
  degrade reason := setCtx fun ctx => { ctx with degraded := some reason }

theorem namesMatch_storedCert {env : Env} (hstored : ∀ p, env.certMeta = some p → p.1 ≠ []) (names : List JsString) :
    namesMatch env.storedCert names =
      .ok (env.certMeta.any fun p => join (sortStrings p.2) (js ",") == join (sortStrings names) (js ",")) := by
  unfold Env.storedCert
  cases hmeta : env.certMeta with
  | none => rfl
  | some p =>
    simp only [dif_neg (hstored p hmeta), namesMatch, namesText_str]
    rfl

theorem degradedReason_reading {env : Env} (hstored : ∀ p, env.certMeta = some p → p.1 ≠ []) (names : List JsString)
    (state : RenewalState) :
    degradedReason (env.reading env.now env.storedCert) names state = degradedReason env names state := by
  unfold degradedReason Env.reading Env.storedCert
  cases hmeta : env.certMeta with
  | none => rfl
  | some p => simp [dif_neg (hstored p hmeta)]

theorem decideRenewal_pipeline {env : Env} (hat : env.storedCert.map (·.storedAt) = env.certMeta.map (·.1))
    (names : List JsString) (zone : Option JsString) (covered : Bool) (state : RenewalState) (certIssuerId : JsString) :
    decideRenewal env env.renewalDeps names zone env.storedCert covered state certIssuerId =
      if renewalDue env (env.certMeta.map (·.1)) covered state then do
        Act.modify fun w => { w with renewal := renewalAfter env state (env.certEnsure certIssuerId names zone) }
        return none
      else return none := by
  have hdue : renewalDue (env.reading env.now env.storedCert) = renewalDue env := rfl
  funext w
  simp only [decideRenewal, Env.renewalDeps, Act.bind_apply, Act.pure_apply, hdue, hat]
  split
  · simp only [attemptRenewal, Act.bind_apply, Act.pure_apply, Act.modify]
    cases env.certEnsure certIssuerId names zone <;> rfl
  · rfl

/-- **The stage of the pipeline is `renewalRun`**, for the names and the zone of the run. -/
theorem renewalStage_eq {env : Env} (hstored : ∀ p, env.certMeta = some p → p.1 ≠ []) (w : World) :
    renewalStage env w = renewalRun env env.renewalDeps ((w.ctx.planGraph.map (·.certNames)).getD [])
      ((w.ctx.desiredState.bind (·.framework)).bind (·.domain)) w := by
  have hat : env.storedCert.map (·.storedAt) = env.certMeta.map (·.1) := by
    unfold Env.storedCert
    cases hmeta : env.certMeta with
    | none => rfl
    | some p => simp [dif_neg (hstored p hmeta)]
  cases hnames : (w.ctx.planGraph.map (·.certNames)).getD [] with
  | nil => simp only [renewalStage, renewalRun, Act.bind_apply, Act.get, hnames, if_true]
  | cons name rest =>
    have hcov := namesMatch_storedCert hstored (name :: rest)
    have hescalated : isEscalated (env.reading env.now env.storedCert) = isEscalated env := rfl
    simp only [renewalStage, renewalRun, Act.bind_apply, Act.get, hnames, reduceCtorEq, if_false, Env.renewalDeps,
      Act.pure_apply, Act.ofExcept, hcov, hat, hescalated, degradedReason_reading hstored]
    have hdecide := decideRenewal_pipeline hat (name :: rest)
      ((w.ctx.desiredState.bind (·.framework)).bind (·.domain))
    simp only [Env.renewalDeps] at hdecide
    simp only [hdecide]
    cases env.certMeta with
    | none => rfl
    | some p => rfl

/-! ### One reconcile after the other -/

/-- What RENEWAL meets in one reconcile. -/
structure Reconcile where
  names : List JsString
  zone : Option JsString
  certIssuer : Option JsString
  certMeta : Option CertMeta
  /-- The outcome of `cert.ensure`, should it be started. -/
  answer : Answer Unit

/-- A `cert.ensure` that was started. -/
structure CertAttempt where
  startedAt : ℤ
  failed : Bool
  /-- `lastAttemptAt` of the state that was written afterwards. -/
  recordedAt : Option ℤ

/-- Between two reconciles: the state on disk, and what has been attempted, the newest last. `ticks` counts
the readings of the clock and the starts of `cert.ensure`. -/
structure Paced where
  ticks : ℕ := 0
  renewal : RenewalState := {}
  attempts : List CertAttempt := []

section Pacing

variable (env : Env) (clock : ℕ → ℤ)

/-- Reading the clock. -/
def readClock : Act Paced ℤ := fun s => (.ok (clock s.ticks), { s with ticks := s.ticks + 1 })

/-- The surroundings of RENEWAL in a reconcile. -/
def Reconcile.deps (r : Reconcile) : RenewalDeps Paced where
  certIssuer := pure r.certIssuer
  invokePlugin _ _ _ := do
    let t ← readClock clock
    Act.modify fun s => { s with attempts := s.attempts ++ [⟨t, !r.answer.isOk, none⟩] }
    return r.answer
  readRenewalState := do return (← Act.get).renewal
  writeRenewalState state := Act.modify fun s =>
    { s with
      renewal := state
      attempts := s.attempts.modifyLast fun a =>
        { a with recordedAt := state.lastAttemptAt.bind env.parseDate } }
  readCertMeta := pure r.certMeta
  onCertChange := pure ()
  now := readClock clock
  degrade _ := pure ()

/-- RENEWAL in a reconcile. -/
def reconcile (r : Reconcile) (s : Paced) : Paced := (renewalRun env (r.deps env clock) r.names r.zone s).2

/-- Any number of reconciles, from the start. -/
def reconciles (runs : List Reconcile) : Paced := runs.foldl (fun s r => reconcile env clock r s) {}

/-- The clock's reading `t` is read back from its text. -/
def ReadsBack (t : ℤ) : Prop := env.toISOString t ≠ [] ∧ env.parseDate (env.toISOString t) = some t

/-- How many attempts have failed since the last that did not. -/
def failuresInARow (attempts : List CertAttempt) : ℕ := (attempts.reverse.takeWhile (·.failed)).length

/-- The stored certificate covers the names. -/
def Reconcile.Covered (r : Reconcile) : Prop := namesMatch r.certMeta r.names = .ok true

/-- What holds of an attempt that is started after those `before`. -/
structure PacedStart (r : Reconcile) (before : List CertAttempt) (a : CertAttempt) : Prop where
  /-- It is written down, at a later instant. -/
  recorded : ∃ t, a.recordedAt = some t ∧ a.startedAt ≤ t
  /-- No certificate that covers the names has more than 30 of its 90 days left. -/
  window : r.Covered → ∀ m t, r.certMeta = some m → env.parseDate m.storedAt = some t →
    certLifetimeMs - (a.startedAt - t) ≤ renewWithinMs
  /-- After failures, the step of the backoff has passed, whatever is stored and required now. -/
  backoff : ∀ last, before.getLast? = some last → 0 < failuresInARow before →
    ∃ t, last.recordedAt = some t ∧ backoffStep (failuresInARow before) ≤ a.startedAt - t
  /-- After a success, a certificate that covers the names is left alone for a day. -/
  daily : r.Covered → ∀ last, before.getLast? = some last → last.failed = false →
    ∃ t, last.recordedAt = some t ∧ 86400000 ≤ a.startedAt - t

/-! ### What a reconcile does -/

/-- The state on disk speaks of the last attempt. -/
structure Recorded (s : Paced) : Prop where
  failures : s.renewal.consecutiveFailures = failuresInARow s.attempts
  last : ∀ a, s.attempts.getLast? = some a →
    ∃ t, a.recordedAt = some t ∧ s.renewal.lastAttemptAt = some (env.toISOString t) ∧ ReadsBack env t

variable {env clock} {r : Reconcile} {s : Paced}

theorem failuresInARow_concat (attempts : List CertAttempt) (a : CertAttempt) :
    failuresInARow (attempts ++ [a]) = if a.failed then failuresInARow attempts + 1 else 0 := by
  unfold failuresInARow
  rw [List.reverse_concat, List.takeWhile_cons]
  split <;> simp

variable (env clock) in
/-- **One reconcile**: it starts nothing and writes nothing, or the decision was for it, and the attempt is
started and written down. -/
theorem reconcile_cases (r : Reconcile) (s : Paced) :
    ((reconcile env clock r s).attempts = s.attempts ∧ (reconcile env clock r s).renewal = s.renewal) ∨
      ∃ covered, namesMatch r.certMeta r.names = .ok covered ∧
        renewalDue (env.reading (clock (s.ticks + 1)) r.certMeta) (r.certMeta.map (·.storedAt)) covered s.renewal = true ∧
        reconcile env clock r s =
          { ticks := s.ticks + 4
            renewal := renewalAfter (env.reading (clock (s.ticks + 3)) none) s.renewal r.answer
            attempts := s.attempts ++ [⟨clock (s.ticks + 2), !r.answer.isOk,
              (renewalAfter (env.reading (clock (s.ticks + 3)) none) s.renewal r.answer).lastAttemptAt.bind
                env.parseDate⟩] } := by
  by_cases hnames : r.names = []
  · simp [reconcile, renewalRun, hnames]
  cases hcovered : namesMatch r.certMeta r.names with
  | error e =>
    left
    simp [reconcile, renewalRun, hnames, Reconcile.deps, Act.bind_apply, Act.ofExcept, hcovered]
  | ok covered =>
    cases hissuer : truthy r.certIssuer with
    | none =>
      left
      simp only [reconcile, renewalRun, hnames, if_false, Reconcile.deps, Act.bind_apply, Act.ofExcept, hcovered, Act.get,
        readClock, Act.pure_apply, hissuer]
      split <;> exact ⟨rfl, rfl⟩
    | some certIssuerId =>
      have hrun : reconcile env clock r s =
          (decideRenewal env (r.deps env clock) r.names r.zone r.certMeta covered s.renewal certIssuerId
            { s with ticks := s.ticks + 1 }).2 := by
        simp only [reconcile, renewalRun, hnames, if_false, Reconcile.deps, Act.bind_apply, Act.ofExcept, hcovered,
          Act.get, readClock, Act.pure_apply, hissuer]
        split <;> rfl
      rw [hrun]
      cases hdue : renewalDue (env.reading (clock (s.ticks + 1)) r.certMeta) (r.certMeta.map (·.storedAt)) covered
          s.renewal with
      | false =>
        left
        simp [decideRenewal, Reconcile.deps, Act.bind_apply, readClock, hdue]
      | true =>
        refine .inr ⟨covered, rfl, hdue, ?_⟩
        simp only [decideRenewal, Reconcile.deps, Act.bind_apply, readClock, hdue, if_true, attemptRenewal, Act.modify,
          Act.pure_apply, List.modifyLast_concat]
        cases r.answer <;> rfl

/-! ### What the decision rests on -/

theorem jitterMs_nonneg (name : JsString) : 0 ≤ jitterMs name := Int.natCast_nonneg _

/-- An attempt at `t` was written down: what is due has waited for the step of the backoff, or for the pace. -/
theorem dueByBackoffOrPace_elapsed {state : RenewalState} {paceMs t : ℤ} (hread : ReadsBack env t)
    (hlast : state.lastAttemptAt = some (env.toISOString t)) (h : dueByBackoffOrPace env state paceMs = true) :
    (0 < state.consecutiveFailures → backoffStep state.consecutiveFailures ≤ env.now - t) ∧
      (state.consecutiveFailures = 0 → paceMs ≤ env.now - t) := by
  have htruthy : truthy (some (env.toISOString t)) = some (env.toISOString t) := by simp [truthy, hread.1]
  simp only [dueByBackoffOrPace, hlast, htruthy, hread.2] at h
  by_cases hfail : 0 < state.consecutiveFailures
  · rw [if_pos hfail] at h
    exact ⟨fun _ => of_decide_eq_true h, fun hzero => absurd hzero hfail.ne'⟩
  · rw [if_neg hfail] at h
    exact ⟨fun hpos => absurd hpos hfail, fun _ => of_decide_eq_true h⟩

/-- A due attempt is one by the backoff or the pace; a certificate that covers the names is in its window, and
the pace is a day. -/
theorem renewalDue_cases {certMeta : Option CertMeta} {covered : Bool} {state : RenewalState}
    (h : renewalDue env (certMeta.map (·.storedAt)) covered state = true) :
    ∃ paceMs, dueByBackoffOrPace env state paceMs = true ∧ ∀ m, certMeta = some m → covered = true →
      86400000 ≤ paceMs ∧ ∀ t, env.parseDate m.storedAt = some t → certLifetimeMs - (env.now - t) ≤ renewWithinMs := by
  cases certMeta with
  | none => exact ⟨0, h, by simp⟩
  | some m =>
    have htruthy : truthy (some m.storedAt) = some m.storedAt := by simp [truthy, m.stored]
    simp only [renewalDue, Option.map_some, htruthy] at h
    cases covered with
    | false => exact ⟨0, h, by simp⟩
    | true =>
      have hjitter := jitterMs_nonneg wildcardCertName
      simp only [Bool.not_true, Bool.false_eq_true, if_false] at h
      cases hdate : env.parseDate m.storedAt with
      | none =>
        simp only [remainingMs, hdate, Option.map_none] at h
        refine ⟨_, h, fun m' hm' _ => ⟨by linarith, fun t ht => ?_⟩⟩
        cases hm'
        rw [hdate] at ht
        cases ht
      | some t₀ =>
        simp only [remainingMs, hdate, Option.map_some] at h
        split at h
        · cases h
        · rename_i hwindow
          refine ⟨_, h, fun m' hm' _ => ⟨by linarith, fun t ht => ?_⟩⟩
          cases hm'
          rw [hdate] at ht
          cases ht
          exact not_lt.mp hwindow

/-! ### Every run -/

theorem renewalAfter_lastAttemptAt (state : RenewalState) (answer : Answer Unit) :
    (renewalAfter env state answer).lastAttemptAt = some (env.toISOString env.now) := by
  cases answer <;> rfl

theorem renewalAfter_failures (state : RenewalState) (answer : Answer Unit) :
    (renewalAfter env state answer).consecutiveFailures = if answer.isOk then 0 else state.consecutiveFailures + 1 := by
  cases answer <;> rfl

theorem Recorded.start : Recorded env {} := ⟨rfl, by simp⟩

/-- A reconcile keeps what the state says of the last attempt. -/
theorem Recorded.reconcile (hclock : ∀ n, ReadsBack env (clock n)) (hs : Recorded env s) (r : Reconcile) :
    Recorded env (reconcile env clock r s) := by
  rcases reconcile_cases env clock r s with ⟨hattempts, hrenewal⟩ | ⟨covered, -, -, heq⟩
  · exact ⟨by rw [hattempts, hrenewal, hs.failures], by rw [hattempts, hrenewal]; exact hs.last⟩
  · rw [heq]
    refine ⟨?_, fun a ha => ?_⟩
    · show (renewalAfter _ _ _).consecutiveFailures = failuresInARow (s.attempts ++ [_])
      rw [failuresInARow_concat, renewalAfter_failures, hs.failures]
      cases r.answer <;> rfl
    · rw [List.getLast?_concat] at ha
      cases ha
      refine ⟨clock (s.ticks + 3), ?_, renewalAfter_lastAttemptAt _ _, hclock _⟩
      rw [renewalAfter_lastAttemptAt]
      exact (hclock _).2

theorem Recorded.reconciles (hclock : ∀ n, ReadsBack env (clock n)) (runs : List Reconcile) :
    Recorded env (reconciles env clock runs) :=
  List.foldlRecOn runs _ .start fun _ hs r _ => hs.reconcile hclock r

/-- An attempt that a reconcile starts after recorded ones. -/
theorem PacedStart.of_due {covered : Bool} {started attempted : ℕ} (hmono : Monotone clock)
    (hclock : ∀ n, ReadsBack env (clock n)) (hs : Recorded env s) (hcovered : namesMatch r.certMeta r.names = .ok covered)
    (hdue : renewalDue (env.reading (clock (s.ticks + 1)) r.certMeta) (r.certMeta.map (·.storedAt)) covered s.renewal = true)
    (hstarted : s.ticks + 1 ≤ started) (hattempted : started ≤ attempted) :
    PacedStart env r s.attempts ⟨clock started, !r.answer.isOk, env.parseDate (env.toISOString (clock attempted))⟩ := by
  obtain ⟨paceMs, hpace, hwindow⟩ := renewalDue_cases hdue
  have hlater : clock (s.ticks + 1) ≤ clock started := hmono hstarted
  have hcov : r.Covered → covered = true := by
    intro hc
    exact Except.ok.inj (hcovered.symm.trans hc)
  -- what has passed since the last attempt, at the instant of the decision
  have hsince : ∀ last, s.attempts.getLast? = some last → ∃ t, last.recordedAt = some t ∧
      (0 < failuresInARow s.attempts → backoffStep (failuresInARow s.attempts) ≤ clock (s.ticks + 1) - t) ∧
      (failuresInARow s.attempts = 0 → paceMs ≤ clock (s.ticks + 1) - t) := by
    intro last hlast
    obtain ⟨t, hrec, hwritten, hread⟩ := hs.last last hlast
    refine ⟨t, hrec, ?_⟩
    rw [← hs.failures]
    exact @dueByBackoffOrPace_elapsed (env.reading (clock (s.ticks + 1)) r.certMeta) _ _ _ hread hwritten hpace
  refine ⟨⟨clock attempted, (hclock attempted).2, hmono hattempted⟩, ?_, ?_, ?_⟩
  · intro hc m t hm ht
    have hleft := (hwindow m hm (hcov hc)).2 t ht
    have hnow : (env.reading (clock (s.ticks + 1)) r.certMeta).now = clock (s.ticks + 1) := rfl
    rw [hnow] at hleft
    show certLifetimeMs - (clock started - t) ≤ renewWithinMs
    linarith
  · intro last hlast hfail
    obtain ⟨t, hrec, hback, -⟩ := hsince last hlast
    refine ⟨t, hrec, ?_⟩
    have hstep := hback hfail
    show _ ≤ clock started - t
    linarith
  · intro hc last hlast hok
    obtain ⟨t, hrec, -, hday⟩ := hsince last hlast
    have hnone : failuresInARow s.attempts = 0 := by
      rw [← List.dropLast_append_getLast? last hlast, failuresInARow_concat, hok]
      rfl
    have hpaced := hday hnone
    obtain ⟨m, hm⟩ : ∃ m, r.certMeta = some m := by
      cases hmeta : r.certMeta with
      | none => simp [Reconcile.Covered, hmeta, namesMatch] at hc
      | some m => exact ⟨m, rfl⟩
    have hlong := (hwindow m hm (hcov hc)).1
    refine ⟨t, hrec, ?_⟩
    show 86400000 ≤ clock started - t
    linarith

/-- **Renewal pacing.** After any number of reconciles the next one starts no `cert.ensure`, or one that is
outside of the certificate's good days, after the backoff of the failures in a row, and after a day where a
covering certificate was attempted with success. -/
theorem renewal_pacing (hmono : Monotone clock) (hclock : ∀ n, ReadsBack env (clock n)) (runs : List Reconcile)
    (r : Reconcile) :
    (reconciles env clock (runs ++ [r])).attempts = (reconciles env clock runs).attempts ∨
      ∃ a, (reconciles env clock (runs ++ [r])).attempts = (reconciles env clock runs).attempts ++ [a] ∧
        PacedStart env r (reconciles env clock runs).attempts a := by
  have hs := Recorded.reconciles hclock runs
  have hnext : reconciles env clock (runs ++ [r]) = reconcile env clock r (reconciles env clock runs) := by
    simp [reconciles, List.foldl_append]
  rw [hnext]
  rcases reconcile_cases env clock r (reconciles env clock runs) with
    ⟨hattempts, -⟩ | ⟨covered, hcovered, hdue, heq⟩
  · exact .inl hattempts
  · refine .inr ⟨_, by rw [heq], ?_⟩
    rw [renewalAfter_lastAttemptAt]
    exact PacedStart.of_due hmono hclock hs hcovered hdue (by omega) (by omega)

end Pacing

/-- Four events at midnight, everything else an hour later. -/
def midnightThenOne (n : ℕ) : ℤ := if n < 4 then 0 else 3600000

/-- The dates of these two instants. -/
def firstHour : Env :=
  { Env.idle with
    toISOString := fun t => if t = 0 then js "1970-01-01T00:00:00.000Z" else js "1970-01-01T01:00:00.000Z"
    parseDate := fun s => if s = js "1970-01-01T00:00:00.000Z" then some 0
      else if s = js "1970-01-01T01:00:00.000Z" then some 3600000 else none }

/-- A host name without a certificate, and an issuer that fails. -/
def failing : Reconcile where
  names := [js "a.example.org"]
  zone := some (js "example.org")
  certIssuer := some (js "acme")
  certMeta := none
  answer := .error (some (js "rate limited"))

theorem midnightThenOne_mono : Monotone midnightThenOne := by
  intro m n hmn
  unfold midnightThenOne
  split_ifs <;> omega

theorem midnightThenOne_readsBack (n : ℕ) : ReadsBack firstHour (midnightThenOne n) := by
  unfold midnightThenOne
  split
  · exact ⟨by decide, by decide⟩
  · exact ⟨by decide, by decide⟩

/-- The second attempt is started, an hour after the first. -/
theorem failing_twice :
    (reconciles firstHour midnightThenOne [failing, failing]).attempts.map (·.startedAt) = [0, 3600000] ∧
      ((reconciles firstHour midnightThenOne [failing, failing]).attempts =
          (reconciles firstHour midnightThenOne [failing]).attempts ∨
        ∃ a, (reconciles firstHour midnightThenOne [failing, failing]).attempts =
            (reconciles firstHour midnightThenOne [failing]).attempts ++ [a] ∧
          PacedStart firstHour failing (reconciles firstHour midnightThenOne [failing]).attempts a) :=
  ⟨by decide, renewal_pacing midnightThenOne_mono midnightThenOne_readsBack [failing] failing⟩

end Wanfw.Orchestrator
