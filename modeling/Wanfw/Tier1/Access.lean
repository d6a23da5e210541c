import Wanfw.Js.Json
import Wanfw.Js.Regex
import Wanfw.Tier1.SessionDb

/-!
# Who gets in

`middleware.ts`, `app/login/actions.ts`, `app/setup/actions.ts` and what they use of `lib/`: the
sessions, the password of the one admin account and the setup token. A request for a page other
than `/login` and `/setup` is let through with the cookie of a session that has not expired.

Logging in and setting up each wait on the way, for argon2 or for the file of the token, and
others go on meanwhile. An action is thus a task that is taken up again: `Event` has the parts in
which nothing is awaited.

`session_traced`: whoever is let through holds a session that was opened for a password that fits
the one of the account, or for the setup token. `account_settled`: that password came with the
setup token too, and no setup that begins later changes it.
-/

namespace Wanfw.Tier1

open Wanfw.Js Wanfw.Store

/-! ### The tables -/

/-- A row of `sessions`. -/
structure SessionRow where
  id : JsString
  expiresAt : JsString

/-- The tables. `admin_user` has one row at most, and of it the hash of the password matters. -/
structure Db where
  adminUser : Option JsString
  sessions : Table SessionRow.id
  loginAttempts : LoginAttempts

/-- `SESSION_TTL_MS`. -/
def sessionTtlMs : ℤ := 12 * 60 * 60 * 1000

/-- `TOKEN_TTL_MS`. -/
def tokenTtlMs : ℤ := 24 * 60 * 60 * 1000

/-- `hasAdminUser`. -/
def Db.hasAdminUser (db : Db) : Bool := db.adminUser.isSome

/-- `setAdminPasswordHash`. -/
def Db.setAdminPasswordHash (db : Db) (hash : JsString) : Db := { db with adminUser := some hash }

/-- `deleteSession`. -/
def Db.deleteSession (db : Db) (sessionId : JsString) : Db :=
  { db with sessions := db.sessions.delete fun r => r.id = sessionId }

/-- `createSession`, with the id that was drawn. An id that is taken violates the primary key. -/
def Db.createSession (D : Dates) (db : Db) (id : JsString) (now : ℤ) : Option (JsString × Db) :=
  match db.sessions.lookup id with
  | some _ => none
  | none =>
    let expiresAt := D.toISOString (now + sessionTtlMs)
    some (expiresAt, { db with sessions := db.sessions.upsert ⟨id, expiresAt⟩ })

/-- `isSessionValid`. -/
def Db.isSessionValid (D : Dates) (db : Db) (sessionId : JsString) (now : ℤ) : Bool :=
  match db.sessions.lookup sessionId with
  | none => false
  | some row => (D.getTime row.expiresAt).any fun expires => now < expires

/-! ### The setup token -/

/-- `verifySetupToken`, with what the file was read and parsed to. Nothing: it throws. -/
def verifySetupToken (dateOf : Option Json → Option ℤ) (file : Option Json) (candidate : JsString)
    (now : ℤ) : Option Bool :=
  match file with
  | none => some false
  | some .null => none
  | some file =>
    match file.prop (js "token") with
    | some (.str token) =>
      if token = [] ∨ candidate ≠ token then some false
      else some ((dateOf (file.prop (js "createdAt"))).any fun created => 0 ≤
        now - created && now - created ≤ tokenTtlMs)
    | _ => some false

/-! ### The actions -/

/-- What the argon2 library, the clock's texts and `new Date(…)` make of their arguments. -/
structure Deps where
  dates : Dates
  dateOf : Option Json → Option ℤ
  verify : JsString → JsString → Bool

/-- An action that waits. -/
inductive Task where
  /-- `loginAction`, for `verifyPassword`. -/
  | verifying (ip hash password : JsString)
  /-- `setupAction`, for the file of the token. -/
  | reading (token password confirm : JsString)
  /-- `setupAction`, for `hashPassword`. -/
  | hashing (password : JsString)
  | done
  deriving DecidableEq

/-- What an action comes to. -/
inductive Reply where
  | error (message : JsString)
  /-- `redirect("/")`, with the session's cookie. -/
  | home (sessionId expiresAt : JsString)
  | toLogin
  | threw
  deriving DecidableEq

/-- The application. -/
structure App where
  db : Db
  tasks : List Task

/-- Nothing has happened yet. -/
def App.initial : App := ⟨⟨none, .empty, .empty⟩, []⟩

/-- One more action waits. -/
def App.await (app : App) (task : Task) : App := { app with tasks := app.tasks ++ [task] }

/-- The action goes on, and waits for something else or for nothing. -/
def App.resume (app : App) (i : ℕ) (task : Task) : App := { app with tasks := app.tasks.set i task }

/-- A session is opened, and its cookie set. -/
def App.openSession (D : Dates) (app : App) (sessionId : JsString) (now : ℤ) : App × Option Reply :=
  match app.db.createSession D sessionId now with
  | none => (app, some .threw)
  | some (expiresAt, db) => ({ app with db }, some (.home sessionId expiresAt))

/-- What happens, one part after the other. -/
inductive Event where
  /-- `loginAction`, up to `verifyPassword`. -/
  | login (now : ℤ) (ip password : JsString)
  /-- Its rest. -/
  | verified (i : ℕ) (sessionId : JsString) (now : ℤ)
  /-- `setupAction`, up to the reading of the file. -/
  | setup (token password confirm : JsString)
  /-- The file is read. -/
  | fileRead (i : ℕ) (file : Option Json) (now : ℤ)
  /-- The password is hashed. -/
  | hashed (i : ℕ) (hash sessionId : JsString) (now : ℤ)
  /-- `logoutAction`, with the cookie. -/
  | logout (cookie : Option JsString)

section Actions

variable (deps : Deps)

/-- `loginAction`, up to `verifyPassword`. -/
def beginLogin (app : App) (now : ℤ) (ip password : JsString) : App × Option Reply :=
  let (allowed, loginAttempts) := checkAndRecordLoginAttempt deps.dates now ip app.db.loginAttempts
  let app := { app with db := { app.db with loginAttempts } }
  if !allowed then (app, some (.error (js "Too many attempts. Try again in a few minutes.")))
  else
    match app.db.adminUser with
    | none => (app, some (.error (js "No admin account is configured yet.")))
    | some hash =>
      if hash = [] then (app, some (.error (js "Incorrect password.")))
      else (app.await (.verifying ip hash password), none)

/-- The rest of `loginAction`. -/
def finishLogin (app : App) (i : ℕ) (sessionId : JsString) (now : ℤ) : App × Option Reply :=
  match app.tasks[i]? with
  | some (.verifying ip hash password) =>
    let app := app.resume i .done
    if !deps.verify hash password then (app, some (.error (js "Incorrect password.")))
    else
      let db := { app.db with loginAttempts := resetLoginAttempts ip app.db.loginAttempts }
      { app with db }.openSession deps.dates sessionId now
  | _ => (app, none)

/-- `setupAction`, up to the reading of the file. -/
def beginSetup (app : App) (token password confirm : JsString) : App × Option Reply :=
  if app.db.hasAdminUser then (app, some (.error (js "An admin account already exists. Log in instead.")))
  else (app.await (.reading (trim token) password confirm), none)

/-- `setupAction`, from there up to `hashPassword`. -/
def continueSetup (app : App) (i : ℕ) (file : Option Json) (now : ℤ) : App × Option Reply :=
  match app.tasks[i]? with
  | some (.reading token password confirm) =>
    match verifySetupToken deps.dateOf file token now with
    | none => (app.resume i .done, some .threw)
    | some false => (app.resume i .done,
        some (.error (js "Invalid or expired setup token. Run `wanfwctl init` on the host to get a new one.")))
    | some true =>
      if password.length < 8 then
        (app.resume i .done, some (.error (js "Password must be at least 8 characters.")))
      else if password ≠ confirm then (app.resume i .done, some (.error (js "Passwords do not match.")))
      else (app.resume i (.hashing password), none)
  | _ => (app, none)

/-- The rest of `setupAction`. -/
def finishSetup (app : App) (i : ℕ) (hash sessionId : JsString) (now : ℤ) : App × Option Reply :=
  match app.tasks[i]? with
  | some (.hashing _) =>
    let app := app.resume i .done
    { app with db := app.db.setAdminPasswordHash hash }.openSession deps.dates sessionId now
  | _ => (app, none)

/-- `logoutAction`. -/
def logoutAction (app : App) (cookie : Option JsString) : App × Option Reply :=
  match cookie.filter fun sessionId => sessionId ≠ [] with
  | none => (app, some .toLogin)
  | some sessionId => ({ app with db := app.db.deleteSession sessionId }, some .toLogin)

/-- One event. -/
def App.step (app : App) : Event → App × Option Reply
  | .login now ip password => beginLogin deps app now ip password
  | .verified i sessionId now => finishLogin deps app i sessionId now
  | .setup token password confirm => beginSetup app token password confirm
  | .fileRead i file now => continueSetup deps app i file now
  | .hashed i hash sessionId now => finishSetup deps app i hash sessionId now
  | .logout cookie => logoutAction app cookie

/-- All of them. -/
def App.run (app : App) (events : List Event) : App :=
  events.foldl (fun app e => (app.step deps e).1) app

/-- `UNAUTHENTICATED_PATHS`. -/
def unauthenticatedPaths : List JsString := [js "/login", js "/setup"]

/-- `middleware`: the request goes on to its page. Otherwise it is redirected to `/login`. -/
def middleware (app : App) (pathname : JsString) (cookie : Option JsString) (now : ℤ) : Bool :=
  pathname ∈ unauthenticatedPaths ||
    (cookie.filter fun sessionId => sessionId ≠ []).any fun sessionId =>
    app.db.isSessionValid deps.dates sessionId now

end Actions

/-! ### One step -/

section Step

variable {deps : Deps} {app : App} {e : Event}

/-- The event leaves a new action waiting. -/
inductive NewTask (deps : Deps) (app : App) : Event → Task → Prop where
  | login {now : ℤ} {ip hash password : JsString} (hadmin : app.db.adminUser = some hash)
    (hallowed : (checkAndRecordLoginAttempt deps.dates now ip app.db.loginAttempts).1 = true) :
    NewTask deps app (.login now ip password) (.verifying ip hash password)
  | setup {token password confirm : JsString} (hadmin : app.db.adminUser = none) :
    NewTask deps app (.setup token password confirm) (.reading (trim token) password confirm)

/-- The event takes an action up, which then waits for this. -/
inductive NextTask (deps : Deps) (app : App) : Event → ℕ → Task → Prop where
  | done (e : Event) (i : ℕ) : NextTask deps app e i .done
  | hashing {i : ℕ} {file : Option Json} {now : ℤ} {token password : JsString}
    (htask : app.tasks[i]? = some (.reading token password password))
    (htoken : verifySetupToken deps.dateOf file token now = some true) :
    NextTask deps app (.fileRead i file now) i (.hashing password)

/-- The event opens a session. -/
inductive OpensSession (deps : Deps) (app : App) : Event → JsString → ℤ → Prop where
  | login {i : ℕ} {sessionId ip hash password : JsString} {now : ℤ}
    (htask : app.tasks[i]? = some (.verifying ip hash password))
    (hverify : deps.verify hash password = true) :
    OpensSession deps app (.verified i sessionId now) sessionId now
  | setup {i : ℕ} {hash sessionId password : JsString} {now : ℤ}
    (htask : app.tasks[i]? = some (.hashing password)) :
    OpensSession deps app (.hashed i hash sessionId now) sessionId now

/-- The event sets the password. -/
inductive SetsPassword (app : App) : Event → JsString → Prop where
  | setup {i : ℕ} {hash sessionId password : JsString} {now : ℤ}
    (htask : app.tasks[i]? = some (.hashing password)) :
    SetsPassword app (.hashed i hash sessionId now) hash

/-- What an event does. -/
structure Stepped (deps : Deps) (app : App) (e : Event) (app' : App) : Prop where
  tasks : app'.tasks = app.tasks ∨
    (∃ task, app'.tasks = app.tasks ++ [task] ∧ NewTask deps app e task) ∨
    ∃ i task, app'.tasks = app.tasks.set i task ∧ NextTask deps app e i task
  admin : app'.db.adminUser = app.db.adminUser ∨
    ∃ hash, app'.db.adminUser = some hash ∧ SetsPassword app e hash
  sessions : ∀ row ∈ app'.db.sessions,
    row ∈ app.db.sessions ∧ (e = .logout (some row.id) → row.id = []) ∨
    ∃ now, OpensSession deps app e row.id now ∧ row.expiresAt = deps.dates.toISOString (now + sessionTtlMs)

theorem tasks_openSession (D : Dates) (app : App) (sessionId : JsString) (now : ℤ) :
    (app.openSession D sessionId now).1.tasks = app.tasks := by
  unfold App.openSession
  split <;> rfl

theorem adminUser_openSession (D : Dates) (app : App) (sessionId : JsString) (now : ℤ) :
    (app.openSession D sessionId now).1.db.adminUser = app.db.adminUser := by
  unfold App.openSession Db.createSession
  split
  · rfl
  · rename_i hcreate
    split at hcreate
    · cases hcreate
    · cases hcreate
      rfl

/-- A session afterwards was there or is the new one. -/
theorem sessions_openSession {D : Dates} {sessionId : JsString} {now : ℤ} {row : SessionRow}
    (h : row ∈ (app.openSession D sessionId now).1.db.sessions) :
    row ∈ app.db.sessions ∨ row = ⟨sessionId, D.toISOString (now + sessionTtlMs)⟩ := by
  unfold App.openSession Db.createSession at h
  split at h
  · exact .inl h
  · rename_i hcreate
    split at hcreate
    · cases hcreate
    · cases hcreate
      rcases Table.mem_upsert.mp h with rfl | ⟨h, -⟩
      · exact .inr rfl
      · exact .inl h

/-- An event that opens no session and sets no password. -/
theorem Stepped.of_db {app' : App} (htasks : app'.tasks = app.tasks ∨
      (∃ task, app'.tasks = app.tasks ++ [task] ∧ NewTask deps app e task) ∨
      ∃ i task, app'.tasks = app.tasks.set i task ∧ NextTask deps app e i task)
    (hadmin : app'.db.adminUser = app.db.adminUser) (hsessions : app'.db.sessions = app.db.sessions)
    (he : ∀ cookie, e ≠ .logout cookie) : Stepped deps app e app' where
  tasks := htasks
  admin := .inl hadmin
  sessions _ hrow := .inl ⟨hsessions ▸ hrow, fun h => absurd h (he _)⟩

theorem stepped_beginLogin (now : ℤ) (ip password : JsString) :
    Stepped deps app (.login now ip password) (beginLogin deps app now ip password).1 := by
  unfold beginLogin
  rcases hcheck : checkAndRecordLoginAttempt deps.dates now ip app.db.loginAttempts with
    ⟨allowed, loginAttempts⟩
  dsimp only
  split
  · exact .of_db (.inl rfl) rfl rfl nofun
  · rename_i hallowed
    split
    · exact .of_db (.inl rfl) rfl rfl nofun
    · rename_i hash hadmin
      split
      · exact .of_db (.inl rfl) rfl rfl nofun
      · refine .of_db (.inr (.inl ⟨_, rfl, .login hadmin ?_⟩)) rfl rfl nofun
        rw [hcheck]
        simpa using hallowed

theorem stepped_finishLogin (i : ℕ) (sessionId : JsString) (now : ℤ) :
    Stepped deps app (.verified i sessionId now) (finishLogin deps app i sessionId now).1 := by
  unfold finishLogin
  split
  · rename_i ip hash password htask
    dsimp only
    split
    · exact .of_db (.inr (.inr ⟨i, .done, rfl, .done _ i⟩)) rfl rfl nofun
    · rename_i hverify
      refine ⟨.inr (.inr ⟨i, .done, tasks_openSession _ _ _ _, .done _ i⟩), .inl (adminUser_openSession _ _ _ _),
        fun row hrow => ?_⟩
      rcases sessions_openSession hrow with hrow | rfl
      · exact .inl ⟨hrow, nofun⟩
      · exact .inr ⟨now, .login htask (by simpa using hverify), rfl⟩
  · exact .of_db (.inl rfl) rfl rfl nofun

theorem stepped_continueSetup (i : ℕ) (file : Option Json) (now : ℤ) :
    Stepped deps app (.fileRead i file now) (continueSetup deps app i file now).1 := by
  have hdone : Stepped deps app (.fileRead i file now) (app.resume i .done) :=
    .of_db (.inr (.inr ⟨i, .done, rfl, .done _ i⟩)) rfl rfl nofun
  unfold continueSetup
  split
  · rename_i token password confirm htask
    split
    · exact hdone
    · exact hdone
    · rename_i htoken
      split
      · exact hdone
      · split
        · exact hdone
        · rename_i hconfirm
          rw [ne_eq, not_not] at hconfirm
          rw [← hconfirm] at htask
          exact .of_db (.inr (.inr ⟨i, _, rfl, .hashing htask htoken⟩)) rfl rfl nofun
  · exact .of_db (.inl rfl) rfl rfl nofun

theorem stepped_finishSetup (i : ℕ) (hash sessionId : JsString) (now : ℤ) :
    Stepped deps app (.hashed i hash sessionId now) (finishSetup deps app i hash sessionId now).1 := by
  unfold finishSetup
  split
  · rename_i password htask
    dsimp only
    refine ⟨.inr (.inr ⟨i, .done, tasks_openSession _ _ _ _, .done _ i⟩),
      .inr ⟨hash, adminUser_openSession _ _ _ _, .setup htask⟩, fun row hrow => ?_⟩
    rcases sessions_openSession hrow with hrow | rfl
    · exact .inl ⟨hrow, nofun⟩
    · exact .inr ⟨now, .setup htask, rfl⟩
  · exact .of_db (.inl rfl) rfl rfl nofun

theorem stepped_logout (cookie : Option JsString) :
    Stepped deps app (.logout cookie) (logoutAction app cookie).1 := by
  unfold logoutAction
  split
  · rename_i hnone
    refine ⟨.inl rfl, .inl rfl, fun row hrow => .inl ⟨hrow, fun h => ?_⟩⟩
    cases h
    simpa using hnone
  · rename_i sessionId hsome
    refine ⟨.inl rfl, .inl rfl, fun row hrow => .inl ?_⟩
    obtain ⟨hrow, hne⟩ := Table.mem_delete.mp hrow
    refine ⟨hrow, fun h => ?_⟩
    cases h
    obtain ⟨heq, -⟩ := Option.filter_eq_some_iff.mp hsome
    cases heq
    simp at hne

/-- **What an event does**, whatever it is. -/
theorem stepped (deps : Deps) (app : App) (e : Event) : Stepped deps app e (app.step deps e).1 := by
  cases e with
  | login now ip password => exact stepped_beginLogin now ip password
  | verified i sessionId now => exact stepped_finishLogin i sessionId now
  | setup token password confirm =>
    change Stepped deps app _ (beginSetup app token password confirm).1
    unfold beginSetup
    split
    · exact .of_db (.inl rfl) rfl rfl nofun
    · rename_i hadmin
      refine .of_db (.inr (.inl ⟨_, rfl, .setup ?_⟩)) rfl rfl nofun
      simpa [Db.hasAdminUser] using hadmin
  | fileRead i file now => exact stepped_continueSetup i file now
  | hashed i hash sessionId now => exact stepped_finishSetup i hash sessionId now
  | logout cookie => exact stepped_logout cookie

end Step

/-! ### What has happened -/

section Traces

variable (deps : Deps)

/-- `e` happened, after `before`. -/
def Happened (events before : List Event) (e : Event) : Prop := ∃ after, events = before ++ e :: after

/-- The state after these events. -/
def after (events : List Event) : App := App.initial.run deps events

/-- A login with this password was begun as the task `i`, when `hash` was stored and the address was
not barred. -/
def LoginBegun (events : List Event) (i : ℕ) (hash password : JsString) : Prop :=
  ∃ before now ip, Happened events before (.login now ip password) ∧
    (after deps before).tasks.length = i ∧
    (after deps before).db.adminUser = some hash ∧
    (checkAndRecordLoginAttempt deps.dates now ip (after deps before).db.loginAttempts).1 = true

/-- A setup was begun as the task `i`, when there was no account. -/
def SetupBegun (events : List Event) (i : ℕ) (token password confirm : JsString) : Prop :=
  ∃ before, Happened events before (.setup token password confirm) ∧
    (after deps before).tasks.length = i ∧
    (after deps before).db.adminUser = none

/-- The setup that is the task `i` came with the setup token, which was in the file and not too old. -/
def TokenShown (events : List Event) (i : ℕ) (password : JsString) : Prop :=
  ∃ before token file now, SetupBegun deps before i token password password ∧
    Happened events before (.fileRead i file now) ∧
    verifySetupToken deps.dateOf file (trim token) now = some true

/-- After `events`, `e` opens this session: its password fits, or it came with the setup token. -/
inductive Opened (events : List Event) : Event → JsString → ℤ → Prop where
  | login {i : ℕ} {sessionId hash password : JsString} {now : ℤ}
    (hbegun : LoginBegun deps events i hash password) (hverify : deps.verify hash password = true) :
    Opened events (.verified i sessionId now) sessionId now
  | setup {i : ℕ} {hash sessionId password : JsString} {now : ℤ}
    (htoken : TokenShown deps events i password) :
    Opened events (.hashed i hash sessionId now) sessionId now

/-- The password was set by a setup that came with the token. -/
def PasswordSet (events : List Event) (hash : JsString) : Prop :=
  ∃ before i sessionId now password, Happened events before (.hashed i hash sessionId now) ∧
    TokenShown deps before i password

/-- The session was opened, and nobody has logged out of it since. -/
def SessionOpened (events : List Event) (row : SessionRow) : Prop :=
  ∃ before e later now, events = before ++ e :: later ∧ Opened deps before e row.id now ∧
    row.expiresAt = deps.dates.toISOString (now + sessionTtlMs) ∧
    (row.id ≠ [] → .logout (some row.id) ∉ later)

/-- **What the state tells of the past.** -/
structure Traced (events : List Event) : Prop where
  verifying : ∀ i ip hash password, (after deps events).tasks[i]? = some (.verifying ip hash password) →
    LoginBegun deps events i hash password
  reading : ∀ i token password confirm, (after deps events).tasks[i]? =
    some (.reading token password confirm) →
    ∃ typed, trim typed = token ∧ SetupBegun deps events i typed password confirm
  hashing : ∀ i password, (after deps events).tasks[i]? = some (.hashing password) →
    TokenShown deps events i password
  admin : ∀ hash, (after deps events).db.adminUser = some hash → PasswordSet deps events hash
  sessions : ∀ row ∈ (after deps events).db.sessions, SessionOpened deps events row

variable {deps} {events before : List Event} {e : Event} {i : ℕ}
  {hash password token confirm : JsString}

theorem after_concat (events : List Event) (e : Event) :
    after deps (events ++ [e]) = ((after deps events).step deps e).1 := by
  simp [after, App.run]

theorem Happened.concat {e' : Event} (h : Happened events before e') (e : Event) :
    Happened (events ++ [e]) before e' := by
  obtain ⟨after, rfl⟩ := h
  exact ⟨after ++ [e], by simp⟩

theorem happened_last (events : List Event) (e : Event) : Happened (events ++ [e]) events e := ⟨[], rfl⟩

theorem LoginBegun.concat (h : LoginBegun deps events i hash password) (e : Event) :
    LoginBegun deps (events ++ [e]) i hash password := by
  obtain ⟨before, now, ip, hhappened, hrest⟩ := h
  exact ⟨before, now, ip, hhappened.concat e, hrest⟩

theorem SetupBegun.concat (h : SetupBegun deps events i token password confirm) (e : Event) :
    SetupBegun deps (events ++ [e]) i token password confirm := by
  obtain ⟨before, hhappened, hrest⟩ := h
  exact ⟨before, hhappened.concat e, hrest⟩

theorem TokenShown.concat (h : TokenShown deps events i password) (e : Event) :
    TokenShown deps (events ++ [e]) i password := by
  obtain ⟨before, token, file, now, hbegun, hhappened, htoken⟩ := h
  exact ⟨before, token, file, now, hbegun, hhappened.concat e, htoken⟩

theorem PasswordSet.concat (h : PasswordSet deps events hash) (e : Event) :
    PasswordSet deps (events ++ [e]) hash := by
  obtain ⟨before, i, sessionId, now, password, hhappened, htoken⟩ := h
  exact ⟨before, i, sessionId, now, password, hhappened.concat e, htoken⟩

theorem SessionOpened.concat {row : SessionRow} (h : SessionOpened deps events row)
    (he : e = .logout (some row.id) → row.id = []) : SessionOpened deps (events ++ [e]) row := by
  obtain ⟨before, e', later, now, rfl, hopened, hexpires, hlogout⟩ := h
  refine ⟨before, e', later ++ [e], now, by simp, hopened, hexpires, fun hne hmem => ?_⟩
  rcases List.mem_append.mp hmem with hmem | hmem
  · exact hlogout hne hmem
  · exact hne (he (List.mem_singleton.mp hmem).symm)

/-- An action that waits after an event: it waited before, or has just begun or gone on to wait for
this. -/
theorem Stepped.task {app app' : App} {task : Task} (h : Stepped deps app e app')
    (htask : app'.tasks[i]? = some task) :
    app.tasks[i]? = some task ∨ i = app.tasks.length ∧ NewTask deps app e task ∨
        NextTask deps app e i task := by
  rcases h.tasks with heq | ⟨new, heq, hnew⟩ | ⟨j, next, heq, hnext⟩
  · exact .inl (heq ▸ htask)
  · rw [heq, List.getElem?_append] at htask
    split at htask
    · exact .inl htask
    · rename_i hge
      obtain ⟨hi, rfl⟩ := List.getElem?_eq_some_iff.mp htask
      have hlast : i - app.tasks.length = 0 := by simpa using hi
      exact .inr (.inl ⟨by omega, by simpa using hnew⟩)
  · rw [heq, List.getElem?_set] at htask
    split at htask
    · rename_i hji
      split at htask
      · cases htask
        exact .inr (.inr (hji ▸ hnext))
      · cases htask
    · exact .inl htask

theorem Traced.concat (h : Traced deps events) (e : Event) : Traced deps (events ++ [e]) := by
  have hstep := stepped deps (after deps events) e
  refine ⟨?_, ?_, ?_, ?_, ?_⟩ <;> rw [after_concat]
  · intro i ip hash password htask
    rcases hstep.task htask with htask | ⟨hi, hnew⟩ | hnext
    · exact (h.verifying i ip hash password htask).concat e
    · cases hnew with
      | login hadmin hallowed => exact ⟨events, _, _, happened_last _ _, hi.symm, hadmin, hallowed⟩
    · cases hnext
  · intro i token password confirm htask
    rcases hstep.task htask with htask | ⟨hi, hnew⟩ | hnext
    · obtain ⟨typed, htyped, hbegun⟩ := h.reading i token password confirm htask
      exact ⟨typed, htyped, hbegun.concat e⟩
    · cases hnew with
      | setup hadmin => exact ⟨_, rfl, events, happened_last _ _, hi.symm, hadmin⟩
    · cases hnext
  · intro i password htask
    rcases hstep.task htask with htask | ⟨hi, hnew⟩ | hnext
    · exact (h.hashing i password htask).concat e
    · cases hnew
    · cases hnext with
      | hashing htask htoken =>
        obtain ⟨typed, rfl, hbegun⟩ := h.reading _ _ _ _ htask
        exact ⟨events, typed, _, _, hbegun, happened_last _ _, htoken⟩
  · intro hash hadmin
    rcases hstep.admin with heq | ⟨hash', heq, hsets⟩
    · exact (h.admin hash (heq ▸ hadmin)).concat e
    · rw [hadmin] at heq
      cases heq
      cases hsets with
      | setup htask => exact ⟨events, _, _, _, _, happened_last _ _, h.hashing _ _ htask⟩
  · intro row hrow
    rcases hstep.sessions row hrow with ⟨hrow, he⟩ | ⟨now, hopens, hexpires⟩
    · exact (h.sessions row hrow).concat he
    · refine ⟨events, e, [], now, rfl, ?_, hexpires, fun _ => List.not_mem_nil⟩
      cases hopens with
      | login htask hverify => exact .login (h.verifying _ _ _ _ htask) hverify
      | setup htask => exact .setup (h.hashing _ _ htask)

theorem traced (deps : Deps) (events : List Event) : Traced deps events := by
  induction events using List.reverseRecOn with
  | nil =>
    refine ⟨nofun, nofun, nofun, nofun, fun row hrow => ?_⟩
    exact absurd hrow List.not_mem_nil
  | append_singleton events e ih => exact ih.concat e

/-! ### Who is let through -/

/-- The clock's reading when a session may be opened. -/
def Event.clock : Event → Option ℤ
  | .verified _ _ now => some now
  | .hashed _ _ _ now => some now
  | _ => none

/-- **Whoever is let through was let in.** Over any events, in any order in which the waiting
actions go on: a request for a page other than `/login` and `/setup` is only let through with the
cookie of a session that was opened less than twelve hours before, by a login whose password fits or
by a setup that came with the token, and of which nobody has logged out since. -/
theorem session_traced {deps : Deps} {events : List Event} {pathname : JsString}
    {cookie : Option JsString} {now : ℤ}
    (hpage : pathname ∉ unauthenticatedPaths) (hdates : ∀ e ∈ events, ∀ t, e.clock = some t →
      deps.dates.getTime (deps.dates.toISOString (t + sessionTtlMs)) = some (t + sessionTtlMs))
    (hlet : middleware deps (after deps events) pathname cookie now = true) :
    ∃ sessionId before e later opened, cookie = some sessionId ∧ events = before ++ e :: later ∧
      Opened deps before e sessionId opened ∧ now < opened + sessionTtlMs ∧
      .logout (some sessionId) ∉ later := by
  rw [middleware, Bool.or_eq_true, decide_eq_true_iff, or_iff_right hpage, Option.any_eq_true] at hlet
  obtain ⟨sessionId, hcookie, hvalid⟩ := hlet
  obtain ⟨rfl, hne⟩ := Option.filter_eq_some_iff.mp hcookie
  unfold Db.isSessionValid at hvalid
  split at hvalid
  · cases hvalid
  · rename_i row hrow
    obtain ⟨hmem, rfl⟩ := Table.lookup_eq_some.mp hrow
    obtain ⟨before, e, later, opened, rfl, hopened, hexpires, hlogout⟩ :=
      (traced deps events).sessions row hmem
    have hclock : e.clock = some opened := by cases hopened <;> rfl
    rw [hexpires, hdates e (by simp) opened hclock, Option.any_some, decide_eq_true_iff] at hvalid
    exact ⟨row.id, before, e, later, opened, rfl, rfl, hopened, hvalid, hlogout (by simpa using hne)⟩

/-! ### The account -/

/-- The action is a setup that was begun. -/
def Task.isSetup : Task → Bool
  | .reading .. | .hashing _ => true
  | _ => false

/-- No setup is under way. -/
def App.NoSetup (app : App) : Prop := ∀ task ∈ app.tasks, task.isSetup = false

theorem App.NoSetup.step {app : App} (h : app.NoSetup) {hash : JsString}
    (hadmin : app.db.adminUser = some hash) (e : Event) :
    (app.step deps e).1.NoSetup ∧ (app.step deps e).1.db.adminUser = some hash := by
  have hstep := stepped deps app e
  constructor
  · intro task htask
    obtain ⟨i, hi⟩ := List.mem_iff_getElem?.mp htask
    rcases hstep.task hi with hi | ⟨-, hnew⟩ | hnext
    · exact h task (List.mem_of_getElem? hi)
    · cases hnew with
      | login => rfl
      | setup hnone =>
        rw [hadmin] at hnone
        cases hnone
    · cases hnext with
      | done => rfl
      | hashing hreading => exact absurd (h _ (List.mem_of_getElem? hreading)) (by simp [Task.isSetup])
  · rcases hstep.admin with heq | ⟨hash', -, hsets⟩
    · exact heq.trans hadmin
    · cases hsets with
      | setup htask => exact absurd (h _ (List.mem_of_getElem? htask)) (by simp [Task.isSetup])

/-- Where there is an account and no setup is under way, no events change the password. -/
theorem setup_dead {app : App} (hadmin : app.db.adminUser = some hash) (hsetup : app.NoSetup)
    (events : List Event) : (app.run deps events).db.adminUser = some hash := by
  induction events generalizing app with
  | nil => exact hadmin
  | cons e events ih =>
    obtain ⟨hsetup', hadmin'⟩ : (app.step deps e).1.NoSetup ∧ (app.step deps e).1.db.adminUser =
        some hash :=
      hsetup.step hadmin e
    exact ih hadmin' hsetup'

/-- **The account.** Its password is that of a setup which was begun when there was none and came
with the setup token. Once no such setup is under way, nothing changes it any more. -/
theorem account_settled (deps : Deps) {events : List Event} {hash : JsString}
    (hadmin : (after deps events).db.adminUser = some hash) : PasswordSet deps events hash ∧
      ((after deps events).NoSetup → ∀ later, (after deps (events ++ later)).db.adminUser =
      some hash) := by
  refine ⟨(traced deps events).admin hash hadmin, fun hsetup later => ?_⟩
  rw [after, App.run, List.foldl_append]
  exact setup_dead hadmin hsetup later

end Traces

/-! ### A first login -/

/-- The texts are the numbers, and a hash is the password behind its parameters. -/
def sampleDeps : Deps where
  dates :=
    { toISOString := fun t =>
        if t = 43200003 then js "1970-01-01T12:00:00.003Z" else js "1970-01-01T12:00:00.005Z"
      getTime := fun text =>
        if text = js "1970-01-01T12:00:00.003Z" then some 43200003 else some 43200005 }
  dateOf _ := some 0
  verify hash password := hash = js "$argon2id$" ++ password

/-- What `wanfwctl init` wrote. -/
def sampleTokenFile : Json :=
  .obj [(js "token", .str (js "5e6f")), (js "createdAt", .str (js "1970-01-01T00:00:00.000Z"))]

/-- Setting up, and logging in. -/
def sampleEvents : List Event :=
  [.setup (js " 5e6f ") (js "correct horse") (js "correct horse"), .fileRead 0 (some sampleTokenFile) 2,
    .hashed 0 (js "$argon2id$correct horse") (js "a1") 3,
    .login 4 (js "10.0.0.9") (js "correct horse"), .verified 1 (js "b2") 5]

theorem session_traced_sample : ∃ sessionId before e later opened, some (js "b2") = some sessionId ∧
    sampleEvents = before ++ e :: later ∧ Opened sampleDeps before e sessionId opened ∧
    6 < opened + sessionTtlMs ∧ .logout (some sessionId) ∉ later := by
  have hlet : middleware sampleDeps (after sampleDeps sampleEvents) (js "/services") (some (js "b2")) 6 = true := by
    decide +kernel
  refine session_traced (by decide) (fun e he t ht => ?_) hlet
  simp only [sampleEvents, List.mem_cons, List.not_mem_nil, or_false] at he
  rcases he with rfl | rfl | rfl | rfl | rfl <;> cases ht <;> decide +kernel

theorem account_settled_sample : PasswordSet sampleDeps sampleEvents (js "$argon2id$correct horse") ∧
    ((after sampleDeps sampleEvents).NoSetup → ∀ later,
      (after sampleDeps (sampleEvents ++ later)).db.adminUser = some (js "$argon2id$correct horse")) :=
  account_settled sampleDeps (by decide +kernel)

end Wanfw.Tier1
