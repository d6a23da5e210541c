import Wanfw.Js.Strings
import Wanfw.Limit.FixedWindow
import Wanfw.Store.Table

/-!
# The login rate limit

`lib/session-db.ts`: for each address the table `login_attempts` has the beginning of a window
and the attempts in it. The tenth attempt is the last one that is allowed until the window is
over; the first one after it begins a new window with a count of one.

The comment in the source calls this a sliding window. `login_sliding_iff` says when it is one:
where each window clears the next. Ten attempts at the end of a window and ten after it are all
allowed (`burst_allowed`).
-/

namespace Wanfw.Tier1

open Wanfw.Js Wanfw.Store Wanfw.Limit

/-- A row of `login_attempts`. -/
structure LoginAttemptRow where
  ip : JsString
  count : ℕ
  windowStartedAt : JsString

abbrev LoginAttempts := Table LoginAttemptRow.ip

/-- The text of a time, and what is read from it. -/
structure Dates where
  toISOString : ℤ → JsString
  getTime : JsString → Option ℤ

/-- `RATE_LIMIT_WINDOW_MS`. -/
def rateLimitWindowMs : ℤ := 5 * 60 * 1000

/-- `RATE_LIMIT_MAX_ATTEMPTS`. -/
def rateLimitMaxAttempts : ℕ := 10

variable (D : Dates)

/-! ### The source -/

/-- The window of a row is over. Of a text that is no date this is never so. -/
def LoginAttemptRow.expired (row : LoginAttemptRow) (now : ℤ) : Bool :=
  (D.getTime row.windowStartedAt).any fun started => rateLimitWindowMs < now - started

/-- `checkAndRecordLoginAttempt`. -/
def checkAndRecordLoginAttempt (now : ℤ) (ip : JsString) (t : LoginAttempts) : Bool × LoginAttempts :=
  match t.lookup ip with
  | none => (true, t.upsert ⟨ip, 1, D.toISOString now⟩)
  | some row =>
    if row.expired D now then (true, t.upsert ⟨ip, 1, D.toISOString now⟩)
    else if rateLimitMaxAttempts ≤ row.count then (false, t)
    else (true, t.update (fun r => r.ip = ip) (fun r => { r with count := r.count + 1 }) fun _ => rfl)

/-- `resetLoginAttempts`. -/
def resetLoginAttempts (ip : JsString) (t : LoginAttempts) : LoginAttempts := t.delete fun r => r.ip = ip

/-- A call. -/
inductive LoginCall where
  | attempt (ip : JsString) (now : ℤ)
  | reset (ip : JsString)

/-- The answers to the attempts: the address, the time and whether it was allowed. -/
def loginResults (t : LoginAttempts) : List LoginCall → List (JsString × ℤ × Bool)
  | [] => []
  | .attempt ip now :: calls =>
    (ip, now, (checkAndRecordLoginAttempt D now ip t).1) :: loginResults (checkAndRecordLoginAttempt D now ip t).2 calls
  | .reset ip :: calls => loginResults (resetLoginAttempts ip t) calls

/-! ### One address -/

/-- The address of a call. -/
def LoginCall.ip : LoginCall → JsString
  | .attempt ip _ => ip
  | .reset ip => ip

/-- The calls for one address. -/
def callsOf (ip : JsString) (calls : List LoginCall) : List LoginCall := calls.filter fun call => call.ip = ip

/-- The times of the attempts. -/
def attemptsOf (ip : JsString) (calls : List LoginCall) : List ℤ := calls.filterMap fun call =>
  match call with
  | .attempt other now => if other = ip then some now else none
  | .reset _ => none

/-- The answers to one address. -/
def resultsOf (ip : JsString) (results : List (JsString × ℤ × Bool)) : List (ℤ × Bool) :=
  (results.filter fun r => r.1 = ip).map (·.2)

/-- The times of the attempts that were allowed. -/
def allowedOf (ip : JsString) (results : List (JsString × ℤ × Bool)) : List ℤ :=
  ((resultsOf ip results).filter (·.2)).map (·.1)

variable {D} {ip other : JsString} {t : LoginAttempts} {now : ℤ}

theorem lookup_reset (h : other ≠ ip) : (resetLoginAttempts other t).lookup ip = t.lookup ip := by
  refine Table.lookup_congr fun r hr => ?_
  rw [resetLoginAttempts, Table.mem_delete, and_iff_left]
  exact decide_eq_false fun heq => h (heq.symm.trans hr)

/-- An attempt from another address. -/
theorem lookup_attempt_ne (h : other ≠ ip) : (checkAndRecordLoginAttempt D now other t).2.lookup ip = t.lookup ip := by
  unfold checkAndRecordLoginAttempt
  split
  · exact Table.lookup_upsert_of_ne h
  · split
    · exact Table.lookup_upsert_of_ne h
    · split
      · rfl
      · rw [Table.lookup_update]
        cases hrow : t.lookup ip with
        | none => rfl
        | some r =>
          have hr := (Table.lookup_eq_some.mp hrow).2
          rw [Option.map_some, if_neg]
          rw [decide_eq_true_iff]
          exact fun heq => h (heq.symm.trans hr)

/-! ### The row is a counter -/

variable (D) in
/-- The window and the count of an address. -/
def counterOf (t : LoginAttempts) (ip : JsString) : Counter :=
  (t.lookup ip).bind fun row => (D.getTime row.windowStartedAt).map fun started => (started, row.count)

variable (D) in
/-- The row of the address, if there is one, has a date in it. -/
def Dated (t : LoginAttempts) (ip : JsString) : Prop :=
  ∀ row, t.lookup ip = some row → ∃ started, D.getTime row.windowStartedAt = some started

/-- An attempt is a call of the counter. -/
theorem check_call (hdated : Dated D t ip) (hnow : D.getTime (D.toISOString now) = some now) :
    (checkAndRecordLoginAttempt D now ip t).1 = ((counterOf D t ip).call rateLimitWindowMs rateLimitMaxAttempts now).1 ∧
      counterOf D (checkAndRecordLoginAttempt D now ip t).2 ip =
        ((counterOf D t ip).call rateLimitWindowMs rateLimitMaxAttempts now).2 ∧
      Dated D (checkAndRecordLoginAttempt D now ip t).2 ip := by
  have hfresh : ∀ t : LoginAttempts, (t.upsert ⟨ip, 1, D.toISOString now⟩).lookup ip = some ⟨ip, 1, D.toISOString now⟩ :=
    fun t => Table.lookup_upsert t ⟨ip, 1, D.toISOString now⟩
  have hbegin : ∀ t : LoginAttempts, counterOf D (t.upsert ⟨ip, 1, D.toISOString now⟩) ip = some (now, 1) ∧
      Dated D (t.upsert ⟨ip, 1, D.toISOString now⟩) ip := by
    intro t
    refine ⟨by rw [counterOf, hfresh, Option.bind_some, hnow]; rfl, fun row hrow => ?_⟩
    rw [hfresh, Option.some.injEq] at hrow
    exact ⟨now, hrow ▸ hnow⟩
  unfold checkAndRecordLoginAttempt
  cases hrow : t.lookup ip with
  | none =>
    rw [show counterOf D t ip = none by rw [counterOf, hrow]; rfl]
    exact ⟨rfl, hbegin t⟩
  | some row =>
    obtain ⟨started, hstarted⟩ := hdated row hrow
    rw [show counterOf D t ip = some (started, row.count) by rw [counterOf, hrow, Option.bind_some, hstarted]; rfl]
    have hexpired : row.expired D now = decide (rateLimitWindowMs < now - started) := by
      rw [LoginAttemptRow.expired, hstarted]
      rfl
    dsimp only [Counter.call]
    rw [hexpired]
    by_cases hover : rateLimitWindowMs < now - started
    · rw [if_pos (decide_eq_true hover), if_pos hover]
      exact ⟨rfl, hbegin t⟩
    · rw [if_neg (by simpa using hover), if_neg hover]
      by_cases hfull : rateLimitMaxAttempts ≤ row.count
      · rw [if_pos hfull, if_pos hfull]
        exact ⟨rfl, by rw [counterOf, hrow, Option.bind_some, hstarted]; rfl, hdated⟩
      · rw [if_neg hfull, if_neg hfull]
        have hlookup : (t.update (fun r => r.ip = ip) (fun r => { r with count := r.count + 1 }) fun _ => rfl).lookup ip =
            some { row with count := row.count + 1 } := by
          rw [Table.lookup_update, hrow, Option.map_some, if_pos]
          exact decide_eq_true (Table.lookup_eq_some.mp hrow).2
        refine ⟨rfl, by rw [counterOf, hlookup, Option.bind_some, hstarted]; rfl, fun row' hrow' => ?_⟩
        rw [hlookup, Option.some.injEq] at hrow'
        exact ⟨started, hrow' ▸ hstarted⟩

/-- The answers to one address are those of the counter. -/
theorem resultsOf_eq (calls : List LoginCall) (hdated : Dated D t ip) (hreset : LoginCall.reset ip ∉ calls)
    (hdates : ∀ now ∈ attemptsOf ip calls, D.getTime (D.toISOString now) = some now) :
    resultsOf ip (loginResults D t calls) =
      answers rateLimitWindowMs rateLimitMaxAttempts (counterOf D t ip) (attemptsOf ip calls) := by
  induction calls generalizing t with
  | nil => rfl
  | cons call calls ih =>
    have hreset' : LoginCall.reset ip ∉ calls := fun h => hreset (List.mem_cons_of_mem _ h)
    cases call with
    | reset other =>
      have hne : other ≠ ip := fun heq => hreset (heq ▸ List.mem_cons_self)
      have hlookup := lookup_reset (t := t) hne
      have hdated' : Dated D (resetLoginAttempts other t) ip := by
        rw [Dated, hlookup]
        exact hdated
      rw [loginResults, ih hdated' hreset' hdates, counterOf, hlookup]
      rfl
    | attempt other now =>
      by_cases heq : other = ip
      · subst heq
        have hattempts : attemptsOf other (.attempt other now :: calls) = now :: attemptsOf other calls := by simp [attemptsOf]
        rw [hattempts] at hdates ⊢
        obtain ⟨hnow, hdates⟩ := List.forall_mem_cons.mp hdates
        obtain ⟨hanswer, hcounter, hdated'⟩ := check_call hdated hnow
        rw [answers, ← hanswer, ← hcounter, ← ih hdated' hreset' hdates]
        simp [loginResults, resultsOf]
      · have hattempts : attemptsOf ip (.attempt other now :: calls) = attemptsOf ip calls := by simp [attemptsOf, heq]
        have hlookup : (checkAndRecordLoginAttempt D now other t).2.lookup ip = t.lookup ip := lookup_attempt_ne heq
        have hdated' : Dated D (checkAndRecordLoginAttempt D now other t).2 ip := by
          rw [Dated, hlookup]
          exact hdated
        rw [hattempts] at hdates ⊢
        rw [counterOf, ← hlookup, ← counterOf, ← ih hdated' hreset' hdates]
        simp [loginResults, resultsOf, heq]

/-- **When the rate limit is a sliding window.** For every calls from an empty row on: in every five minutes at most ten
attempts of the address are allowed, and calls for other addresses make no difference, just when each window clears the next. -/
theorem login_sliding_iff (D : Dates) (ip : JsString) {t : LoginAttempts} {calls : List LoginCall} (hnew : t.lookup ip = none)
    (hreset : LoginCall.reset ip ∉ calls) (hsorted : (attemptsOf ip calls).Pairwise (· ≤ ·))
    (hdates : ∀ now ∈ attemptsOf ip calls, D.getTime (D.toISOString now) = some now) :
    ((∀ a, inInterval rateLimitWindowMs a (allowedOf ip (loginResults D t calls)) ≤ 10) ∧
        resultsOf ip (loginResults D t calls) = resultsOf ip (loginResults D t (callsOf ip calls))) ↔
      (windows rateLimitWindowMs (attemptsOf ip calls)).IsChain (Clears rateLimitWindowMs 10) := by
  have hdated : Dated D t ip := by
    intro row hrow
    rw [hnew] at hrow
    cases hrow
  have hcounter : counterOf D t ip = none := by
    rw [counterOf, hnew]
    rfl
  have hown : attemptsOf ip (callsOf ip calls) = attemptsOf ip calls := by
    rw [attemptsOf, callsOf, List.filterMap_filter]
    refine List.filterMap_congr fun call _ => ?_
    cases call with
    | reset other => exact ite_self _
    | attempt other now => by_cases heq : other = ip <;> simp [LoginCall.ip, heq]
  have hresults := resultsOf_eq calls hdated hreset hdates
  have hindependent := resultsOf_eq (callsOf ip calls) hdated (fun h => hreset (List.mem_of_mem_filter h)) (hown ▸ hdates)
  rw [and_iff_left (by rw [hresults, hindependent, hown])]
  rw [allowedOf, hresults, ← allowed_answers, hcounter]
  exact sliding_iff (by decide) (by decide) hsorted

/-! ### A burst -/

/-- The times of the runs below, with their texts. -/
def burstTimes : List (ℤ × JsString) :=
  [(0, js "1970-01-01T00:00:00.000Z"), (1000, js "1970-01-01T00:00:01.000Z"), (299999, js "1970-01-01T00:04:59.999Z"),
    (300001, js "1970-01-01T00:05:00.001Z")]

/-- These dates. -/
def burstDates : Dates where
  toISOString t := ((burstTimes.find? fun d => d.1 = t).map (·.2)).getD []
  getTime text := (burstTimes.find? fun d => d.2 = text).map (·.1)

/-- Eleven attempts in a window, one from another address that then logs in, and one after the window. -/
def fullWindow : List LoginCall :=
  List.replicate 10 (.attempt (js "10.0.0.9") 0) ++ [.attempt (js "10.0.0.7") 1000, .attempt (js "10.0.0.9") 1000,
    .reset (js "10.0.0.7"), .attempt (js "10.0.0.9") 300001]

/-- The eleventh is refused, and there are never more than ten in five minutes. -/
theorem login_sliding_two :
    (1000, false) ∈ resultsOf (js "10.0.0.9") (loginResults burstDates .empty fullWindow) ∧
    (∀ a, inInterval rateLimitWindowMs a
      (allowedOf (js "10.0.0.9") (loginResults burstDates .empty fullWindow)) ≤ 10) ∧
    resultsOf (js "10.0.0.9") (loginResults burstDates .empty fullWindow) =
      resultsOf (js "10.0.0.9") (loginResults burstDates .empty (callsOf (js "10.0.0.9") fullWindow)) := by
  have hreset : LoginCall.reset (js "10.0.0.9") ∉ fullWindow := by
    simp [fullWindow, show js "10.0.0.9" ≠ js "10.0.0.7" by decide]
  refine ⟨by decide +kernel, ?_⟩
  refine (login_sliding_iff burstDates (js "10.0.0.9") rfl hreset (by decide +kernel) (by decide +kernel)).mpr ?_
  have hattempts : attemptsOf (js "10.0.0.9") fullWindow = List.replicate 10 0 ++ [1000, 300001] := by decide +kernel
  have hwindows : windows rateLimitWindowMs (List.replicate 10 0 ++ [1000, 300001]) =
      [List.replicate 10 0 ++ [1000], [300001]] := by
    simp [windows, rateLimitWindowMs, List.replicate]
  rw [hattempts, hwindows]
  refine List.isChain_cons_cons.mpr ⟨fun i now hnow => ?_, List.isChain_singleton _⟩
  obtain ⟨hi, rfl⟩ := List.getElem?_eq_some_iff.mp hnow
  have hi : i < 1 := hi
  obtain rfl : i = 0 := by omega
  change (List.replicate 10 (0 : ℤ)).countP (fun t => decide ((300001 : ℤ) - rateLimitWindowMs ≤ t)) + (0 + 1) ≤ 10
  decide

/-- An attempt, nine more at the end of its window, and ten at the beginning of the next one. -/
def burst : List LoginCall :=
  .attempt (js "10.0.0.9") 0 :: (List.replicate 9 (.attempt (js "10.0.0.9") 299999) ++
    List.replicate 10 (.attempt (js "10.0.0.9") 300001))

/-- Nineteen attempts within two milliseconds are allowed. -/
theorem burst_allowed : (attemptsOf (js "10.0.0.9") burst).Pairwise (· ≤ ·) ∧ LoginCall.reset (js "10.0.0.9") ∉ burst ∧
    ¬ ∀ a, inInterval rateLimitWindowMs a (allowedOf (js "10.0.0.9") (loginResults burstDates .empty burst)) ≤ 10 := by
  refine ⟨by decide +kernel, by simp [burst], fun h => ?_⟩
  have hcount : inInterval rateLimitWindowMs 299999 (allowedOf (js "10.0.0.9") (loginResults burstDates .empty burst)) = 19 := by
    decide +kernel
  have hbound := h 299999
  omega

end Wanfw.Tier1
