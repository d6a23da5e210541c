import Wanfw.Tier1.Access

/-!
# Guessing the password

The rate limit in the application: an address has its attempts counted by `loginAction`, and its
row deleted when a password of its fits. As long as none does, `guesses_bounded`: in every five
minutes at most twenty passwords from the address come to `verifyPassword`, whatever other
addresses do and in whichever order the waiting actions go on. The clock is one that does not go
back between two attempts.
-/

namespace Wanfw.Tier1

open Wanfw.Js Wanfw.Store Wanfw.Limit

section Calls

variable (deps : Deps)

/-- What an event does to `login_attempts`. -/
def Event.call (app : App) : Event → Option LoginCall
  | .login now ip _ => some (.attempt ip now)
  | .verified i _ _ =>
    match app.tasks[i]? with
    | some (.verifying ip hash password) => if deps.verify hash password then some (.reset ip) else none
    | _ => none
  | _ => none

/-- What events do to `login_attempts`. -/
def calls (app : App) : List Event → List LoginCall
  | [] => []
  | e :: events => (e.call deps app).toList ++ calls (app.step deps e).1 events

/-- The event hands a password from the address to `verifyPassword`, at this time. -/
def Event.guess (ip : JsString) (app : App) : Event → List ℤ
  | .login now other password =>
    if other = ip ∧ app.tasks.length <
      (beginLogin deps app now other password).1.tasks.length then [now] else []
  | _ => []

/-- The times at which events do so. -/
def guesses (ip : JsString) (app : App) : List Event → List ℤ
  | [] => []
  | e :: events => e.guess deps ip app ++ guesses ip (app.step deps e).1 events

/-- The times of the logins from the address. -/
def loginTimes (ip : JsString) (events : List Event) : List ℤ := events.filterMap fun e =>
  match e with
  | .login now other _ => if other = ip then some now else none
  | _ => none

/-- No password from the address fits. -/
def NeverRight (ip : JsString) (events : List Event) : Prop :=
  ∀ before i sessionId now later hash password, events = before ++ .verified i sessionId now :: later →
    (after deps before).tasks[i]? = some (.verifying ip hash password) →
    deps.verify hash password = false

variable {deps} {app : App} {ip : JsString}

/-- The table after one call. -/
def LoginCall.apply (D : Dates) (t : LoginAttempts) : LoginCall → LoginAttempts
  | .attempt ip now => (checkAndRecordLoginAttempt D now ip t).2
  | .reset ip => resetLoginAttempts ip t

theorem loginAttempts_openSession (D : Dates) (app : App) (sessionId : JsString) (now : ℤ) :
    (app.openSession D sessionId now).1.db.loginAttempts = app.db.loginAttempts := by
  unfold App.openSession Db.createSession
  split
  · rfl
  · rename_i hcreate
    split at hcreate <;> cases hcreate
    rfl

theorem loginAttempts_beginLogin (now : ℤ) (ip password : JsString) :
    (beginLogin deps app now ip password).1.db.loginAttempts =
      (checkAndRecordLoginAttempt deps.dates now ip app.db.loginAttempts).2 := by
  unfold beginLogin
  dsimp only
  split
  · rfl
  · split
    · rfl
    · split <;> rfl

theorem loginAttempts_finishLogin (i : ℕ) (sessionId : JsString) (now : ℤ) :
    (finishLogin deps app i sessionId now).1.db.loginAttempts =
      ((Event.verified i sessionId now).call deps app).elim app.db.loginAttempts
        (LoginCall.apply deps.dates app.db.loginAttempts) := by
  unfold finishLogin
  dsimp only [Event.call]
  rcases app.tasks[i]? with _ | ⟨ip, hash, password⟩ | _ | _ | _
  · rfl
  · dsimp only
    cases deps.verify hash password
    · rfl
    · exact loginAttempts_openSession _ _ _ _
  all_goals rfl

/-- The table changes by the call of the event. -/
theorem loginAttempts_step (e : Event) : (app.step deps e).1.db.loginAttempts =
    (e.call deps app).elim app.db.loginAttempts (LoginCall.apply deps.dates app.db.loginAttempts) := by
  cases e with
  | login now ip password => exact loginAttempts_beginLogin now ip password
  | verified i sessionId now => exact loginAttempts_finishLogin i sessionId now
  | setup token password confirm =>
    change (beginSetup app token password confirm).1.db.loginAttempts = _
    unfold beginSetup
    split <;> rfl
  | fileRead i file now =>
    change (continueSetup deps app i file now).1.db.loginAttempts = _
    unfold continueSetup
    split
    · split
      · rfl
      · rfl
      · split
        · rfl
        · split <;> rfl
    · rfl
  | hashed i hash sessionId now =>
    change (finishSetup deps app i hash sessionId now).1.db.loginAttempts = _
    unfold finishSetup
    split
    · exact loginAttempts_openSession _ _ _ _
    · rfl
  | logout cookie =>
    change (logoutAction app cookie).1.db.loginAttempts = _
    unfold logoutAction
    split <;> rfl

/-- A password is only handed on by an attempt that is allowed. -/
theorem allowed_of_awaits {now : ℤ} {password : JsString}
    (h : app.tasks.length < (beginLogin deps app now ip password).1.tasks.length) :
    (checkAndRecordLoginAttempt deps.dates now ip app.db.loginAttempts).1 = true := by
  by_contra hbarred
  rw [Bool.not_eq_true] at hbarred
  refine lt_irrefl app.tasks.length (h.trans_eq ?_)
  unfold beginLogin
  simp [hbarred]

theorem loginResults_append_call (call : Option LoginCall) (t : LoginAttempts) (rest : List LoginCall) :
    loginResults deps.dates t (call.toList ++ rest) =
      (match call with
        | some (.attempt ip now) => [(ip, now, (checkAndRecordLoginAttempt deps.dates now ip t).1)]
        | _ => []) ++
      loginResults deps.dates (call.elim t (LoginCall.apply deps.dates t)) rest := by
  rcases call with _ | ⟨ip, now⟩ | ip <;> rfl

theorem allowedOf_append (ip : JsString) (rs rs' : List (JsString × ℤ × Bool)) :
    allowedOf ip (rs ++ rs') = allowedOf ip rs ++ allowedOf ip rs' := by
  simp [allowedOf, resultsOf]

/-- What was handed on is among what was allowed. -/
theorem guesses_sublist (ip : JsString) (app : App) (events : List Event) :
    (guesses deps ip app events).Sublist
      (allowedOf ip (loginResults deps.dates app.db.loginAttempts (calls deps app events))) := by
  induction events generalizing app with
  | nil => exact .slnil
  | cons e events ih =>
    rw [guesses, calls, loginResults_append_call, allowedOf_append, ← loginAttempts_step]
    refine List.Sublist.append ?_ (ih _)
    cases e with
    | login now other password =>
      by_cases hguess : other = ip ∧
        app.tasks.length < (beginLogin deps app now other password).1.tasks.length
      · rw [Event.guess, if_pos hguess]
        simp [Event.call, allowedOf, resultsOf, hguess.1, hguess.1 ▸ allowed_of_awaits hguess.2]
      · rw [Event.guess, if_neg hguess]
        exact List.nil_sublist _
    | verified | setup | fileRead | hashed | logout => exact List.nil_sublist _

variable (deps) in
/-- A verified password is no attempt. -/
theorem call_verified (app : App) (i : ℕ) (sessionId : JsString) (now : ℤ) :
    (Event.verified i sessionId now).call deps app = none ∨
      ∃ ip, (Event.verified i sessionId now).call deps app = some (.reset ip) := by
  dsimp only [Event.call]
  split
  · split
    · exact .inr ⟨_, rfl⟩
    · exact .inl rfl
  · exact .inl rfl

variable (deps) in
theorem attemptsOf_calls (ip : JsString) (app : App) (events : List Event) :
    attemptsOf ip (calls deps app events) = loginTimes ip events := by
  induction events generalizing app with
  | nil => rfl
  | cons e events ih =>
    rw [calls, attemptsOf, List.filterMap_append]
    refine (congrArg _ (ih (app.step deps e).1)).trans ?_
    cases e with
    | login now other password =>
      simp only [Event.call, Option.toList_some, loginTimes, List.filterMap_cons, List.filterMap_nil]
      split <;> rfl
    | verified i sessionId now =>
      rcases call_verified deps app i sessionId now with hcall | ⟨other, hcall⟩ <;> rw [hcall] <;> rfl
    | setup | fileRead | hashed | logout => rfl

/-- Where no password from the address fits, its row is not deleted. -/
theorem reset_not_mem_calls {events : List Event} (hwrong : NeverRight deps ip events)
    (before rest : List Event)
    (hevents : events = before ++ rest) : LoginCall.reset ip ∉ calls deps (after deps before) rest := by
  induction rest generalizing before with
  | nil => exact List.not_mem_nil
  | cons e rest ih =>
    have hrest := ih (before ++ [e]) (by rw [hevents, List.append_assoc]; rfl)
    rw [after_concat] at hrest
    rw [calls, List.mem_append]
    refine not_or.mpr ⟨fun hcall => ?_, hrest⟩
    rw [Option.mem_toList] at hcall
    cases e with
    | verified i sessionId now =>
      dsimp only [Event.call] at hcall
      split at hcall
      · rename_i other hash password htask
        split at hcall
        · rename_i hright
          cases hcall
          rw [hwrong before i sessionId now rest hash password hevents htask] at hright
          cases hright
        · cases hcall
      · cases hcall
    | login | setup | fileRead | hashed | logout => cases hcall

end Calls

/-- **Guessing is slow.** Over any events, in any order in which the waiting actions go on: as long
as no password from the address fits, and the clock does not go back between its attempts, at most
twenty from it come to `verifyPassword` in any five minutes. -/
theorem guesses_bounded {deps : Deps} {ip : JsString} {events : List Event}
    (hwrong : NeverRight deps ip events) (hsorted : (loginTimes ip events).Pairwise (· ≤ ·))
    (hdates : ∀ now ∈ loginTimes ip events, deps.dates.getTime (deps.dates.toISOString now) = some now) (a : ℤ) :
    inInterval rateLimitWindowMs a (guesses deps ip .initial events) ≤ 20 := by
  have hattempts := attemptsOf_calls deps ip .initial events
  have hresults : resultsOf ip (loginResults deps.dates .empty (calls deps .initial events)) =
      answers rateLimitWindowMs rateLimitMaxAttempts none (loginTimes ip events) := by
    rw [← hattempts]
    exact resultsOf_eq (t := .empty) _ nofun (reset_not_mem_calls hwrong [] events rfl) (hattempts ▸ hdates)
  have hallowed : allowedOf ip (loginResults deps.dates .empty (calls deps .initial events)) =
      allowed rateLimitWindowMs rateLimitMaxAttempts none (loginTimes ip events) := by
    rw [allowedOf, hresults, ← allowed_answers]
  calc inInterval rateLimitWindowMs a (guesses deps ip .initial events)
      ≤ inInterval rateLimitWindowMs a
          (allowedOf ip (loginResults deps.dates .empty (calls deps .initial events))) :=
        (guesses_sublist ip .initial events).countP_le
    _ = inInterval rateLimitWindowMs a
          (allowed rateLimitWindowMs rateLimitMaxAttempts none (loginTimes ip events)) := by rw [hallowed]
    _ ≤ rateLimitMaxAttempts + rateLimitMaxAttempts := allowed_bound (by decide) (by decide) hsorted a

/-- After the setup somebody guesses, eleven times. -/
def guessed : List Event :=
  [.setup (js "5e6f") (js "correct horse") (js "correct horse"), .fileRead 0 (some sampleTokenFile) 2,
    .hashed 0 (js "$argon2id$correct horse") (js "a1") 3] ++
  List.replicate 11 (.login 43200003 (js "10.0.0.66") (js "password1"))

/-- The first of the passwords is verified. -/
def sampleGuess : List Event := guessed ++ [.verified 1 (js "c3") 43200005]

/-- The eleventh is refused. -/
theorem guesses_bounded_sample :
    loginTimes (js "10.0.0.66") sampleGuess = List.replicate 11 43200003 ∧
    guesses sampleDeps (js "10.0.0.66") .initial sampleGuess = List.replicate 10 43200003 ∧
    inInterval rateLimitWindowMs 43200003 (guesses sampleDeps (js "10.0.0.66") .initial sampleGuess) ≤ 20 := by
  refine ⟨by decide +kernel, by decide +kernel, ?_⟩
  refine guesses_bounded (fun before i sessionId now later hash password hevents htask => ?_)
    (by decide +kernel) (by decide +kernel) _
  rcases List.eq_nil_or_concat' later with rfl | ⟨later, last, rfl⟩
  · obtain ⟨rfl, hverified⟩ := List.append_inj' hevents rfl
    cases hverified
    have hwaiting : (after sampleDeps guessed).tasks[1]? =
        some (.verifying (js "10.0.0.66") (js "$argon2id$correct horse") (js "password1")) := by
      decide +kernel
    rw [hwaiting] at htask
    cases htask
    decide +kernel
  · -- nothing was verified before
    rw [← List.cons_append, ← List.append_assoc] at hevents
    obtain ⟨hguessed, -⟩ := List.append_inj' hevents rfl
    have hmem : Event.verified i sessionId now ∈ guessed := by simp [hguessed]
    simp [guessed] at hmem

end Wanfw.Tier1
