import Wanfw.Pluginhost.Supervisor

/-!
# The key-value store of a plugin

`state.get`, `state.put` and `state.delete` of the host API, over the table `plugin_kv`. Each
plugin has its own keys: `kv_last_write` says that a `state.get` is answered with what the last
`state.put` of the same plugin and key stored, whatever host calls of any plugins there were in
between, whether they succeeded or not, and whatever else happened to the grants, the trust records
and the other stores. `Kv` is the store that the plugins see.
-/

namespace Wanfw.Orchestrator

open Wanfw.Js

namespace PluginKv

/-! ### What the plugins see -/

/-- The value of each key of each plugin. -/
abbrev Kv := JsString → JsString → Option JsString

/-- A change of the store. -/
inductive Write where
  | put (pluginId key value : JsString)
  | delete (pluginId key : JsString)
  deriving DecidableEq

/-- The key that is written. -/
def Write.place : Write → JsString × JsString
  | .put pluginId key _ => (pluginId, key)
  | .delete pluginId key => (pluginId, key)

/-- What is there afterwards. -/
def Write.value : Write → Option JsString
  | .put _ _ value => some value
  | .delete _ _ => none

/-- The store after a write. -/
def Kv.write (kv : Kv) (w : Write) : Kv :=
  fun pluginId key => if w.place = (pluginId, key) then w.value else kv pluginId key

/-- What the last write of a key left, or what was there before. -/
def lastWrite (kv : Kv) (writes : List Write) (pluginId key : JsString) : Option JsString :=
  match (writes.filter fun w => w.place = (pluginId, key)).getLast? with
  | some w => w.value
  | none => kv pluginId key

/-- One write after the other. -/
theorem foldl_write (kv : Kv) (writes : List Write) (pluginId key : JsString) :
    writes.foldl Kv.write kv pluginId key = lastWrite kv writes pluginId key := by
  induction writes using List.reverseRecOn with
  | nil => rfl
  | append_singleton writes w ih =>
    rw [List.foldl_append, List.foldl_cons, List.foldl_nil, Kv.write, ih, lastWrite, lastWrite, List.filter_append]
    by_cases hplace : w.place = (pluginId, key)
    · rw [if_pos hplace, List.filter_cons_of_pos (by simpa using hplace), List.filter_nil, List.getLast?_concat]
    · rw [if_neg hplace, List.filter_cons_of_neg (by simpa using hplace), List.filter_nil, List.append_nil]

/-! ### The table -/

section Calls

variable {ρ : Type}

/-- The store that the table holds. -/
def kvOf (s : HostState ρ) : Kv := fun pluginId key => Obj.get (s.rows pluginId).kv key

/-- The plugin, the method and the arguments of a host call, if they can be read. -/
def readCall (params : Value) : Option (Value × JsString × Value) := do
  let pluginId ← (params.destructure (js "params") (js "pluginId")).toOption
  let method ← (params.destructure (js "params") (js "method")).toOption
  let args ← (params.destructure (js "params") (js "args")).toOption
  let key ← method.toText.toOption
  return (pluginId, key, args)

variable (deps : HostDeps ρ)

/-- One field of the arguments, as a statement's parameter. -/
def boundArg (k : String) (args : Value) : Option JsString :=
  (args.destructure (js "args") (js k)).toOption.bind fun v => (deps.bind v).toOption

/-- What `state.put` writes. -/
def putOf (caller args : Value) : Option Write :=
  (boundArg deps "key" args).bind fun key => (boundArg deps "value" args).bind fun value =>
    (deps.bind caller).toOption.map fun pluginId => .put pluginId key value

/-- What `state.delete` writes. -/
def deleteOf (caller args : Value) : Option Write :=
  (boundArg deps "key" args).bind fun key => (deps.bind caller).toOption.map fun pluginId => .delete pluginId key

/-- What a host call writes. -/
def writeOf (params : Value) : Option Write :=
  (readCall params).bind fun (caller, method, args) =>
    if method = js "state.put" then putOf deps caller args
    else if method = js "state.delete" then deleteOf deps caller args
    else none

/-- A host call that reads a key. -/
def Reads (params : Value) (pluginId key : JsString) : Prop :=
  ∃ caller args, readCall params = some (caller, js "state.get", args) ∧
    (deps.bind caller).toOption = some pluginId ∧
    boundArg deps "key" args = some key

variable {deps} {s : HostState ρ} {kv : Kv} {pluginId key : JsString} {caller args params : Value}

/-- The store stays what it is. -/
abbrev KeepsKv {α : Type} (kv : Kv) (m : HostM ρ α) : Prop := Act.Keeps (fun s => kvOf s = kv) m

theorem keepsKv_ofExcept {α : Type} (x : Except JsError α) : KeepsKv kv (Act.ofExcept x : HostM ρ α) :=
  Act.Triple.ofExcept (fun _ _ _ h => h) fun _ _ _ h => h

theorem keepsKv_onRest {α : Type} (m : Act ρ α) : KeepsKv kv (onRest m : HostM ρ α) := by
  intro s hs
  unfold onRest
  rcases m s.rest with ⟨r, rest⟩
  cases r <;> exact hs

theorem keepsKv_rowsOf : KeepsKv kv (rowsOf deps caller) :=
  (keepsKv_ofExcept _).bind fun _ => Act.Keeps.get.bind fun _ => .pure _

theorem keepsKv_deny {α : Type} (parts : List (JsString × Value)) (last : JsString) :
    KeepsKv kv (deny parts last : HostM ρ α) :=
  (keepsKv_ofExcept _).bind fun _ => .throw _

theorem keepsKv_requireCap (cap : String) (p : Json → Except JsError Bool) :
    KeepsKv kv (requireCap deps caller cap p) :=
  (keepsKv_rowsOf.bind fun _ => keepsKv_ofExcept _).bind fun _ => keepsKv_ofExcept _

theorem keepsKv_callingPluginTypes : KeepsKv kv (callingPluginTypes deps caller) := by
  refine Act.Keeps.get.bind fun s => ?_
  split
  · split
    · exact .pure _
    · exact keepsKv_onRest _
  · exact .pure _

theorem keepsKv_requireProvider (method : String) :
    KeepsKv kv (requireProvider deps method caller) := by
  refine keepsKv_callingPluginTypes.bind fun types => ?_
  split
  · exact .pure _
  · exact keepsKv_deny _ _

theorem keepsKv_checked {α : Type} {cap : String} {p : Json → Except JsError Bool}
    {m m' : HostM ρ α} (hm : KeepsKv kv m)
    (hm' : KeepsKv kv m') : KeepsKv kv (do if ← requireCap deps caller cap p then m else m') := by
  refine (keepsKv_requireCap cap p).bind fun granted => ?_
  cases granted with
  | true => exact hm
  | false => exact hm'

theorem keepsKv_arg (k : String) : KeepsKv kv (arg k args : HostM ρ Value) := keepsKv_ofExcept _

theorem keepsKv_brokerDnsApply (method action : String) :
    KeepsKv kv (brokerDnsApply deps method action caller args) := by
  refine (keepsKv_arg _).bind fun zone => (keepsKv_arg _).bind fun record => keepsKv_checked ?_ (keepsKv_deny _ _)
  refine (keepsKv_onRest _).bind fun provider => ?_
  split
  · exact .throw _
  · refine (keepsKv_onRest _).bind fun answer => ?_
    split
    · exact .throw _
    · exact .pure _

/-- The handlers other than `state.put` and `state.delete`. -/
theorem keepsKv_handlers : ∀ e ∈ handlers deps, e.1 ≠ js "state.put" → e.1 ≠ js "state.delete" →
    KeepsKv kv (e.2 caller args) := by
  simp only [handlers, List.forall_mem_cons]
  refine ⟨fun _ _ => ?_, fun h => absurd rfl h, fun _ h => absurd rfl h, fun _ _ => ?_, fun _ _ => ?_, fun _ _ => ?_,
    fun _ _ => keepsKv_brokerDnsApply _ _, fun _ _ => keepsKv_brokerDnsApply _ _,
    fun _ _ => ?_, fun _ _ => ?_, fun _ _ => ?_, fun _ _ => ?_, fun _ _ => ?_, by simp⟩
  · exact (keepsKv_arg _).bind fun _ => keepsKv_rowsOf.bind fun _ =>
      (keepsKv_ofExcept _).bind fun _ => .pure _
  · exact (keepsKv_arg _).bind fun _ => (keepsKv_arg _).bind fun _ => (keepsKv_arg _).bind fun _ =>
      (keepsKv_onRest _).bind fun _ => .pure _
  · exact (keepsKv_arg _).bind fun _ => keepsKv_checked ((keepsKv_onRest _).bind fun _ => .pure _) (keepsKv_deny _ _)
  · exact (keepsKv_arg _).bind fun _ => (keepsKv_arg _).bind fun _ =>
      keepsKv_checked ((keepsKv_onRest _).bind fun _ => .pure _) (keepsKv_deny _ _)
  · exact (keepsKv_arg _).bind fun _ => (keepsKv_arg _).bind fun _ => (keepsKv_arg _).bind fun _ =>
      (keepsKv_ofExcept _).bind fun _ => (keepsKv_onRest _).bind fun _ => .pure _
  · refine (keepsKv_arg _).bind fun _ => (keepsKv_arg _).bind fun _ => (keepsKv_arg _).bind fun _ =>
      (keepsKv_arg _).bind fun _ => keepsKv_checked ?_ (keepsKv_deny _ _)
    exact (keepsKv_onRest _).bind fun _ => (keepsKv_onRest _).bind fun _ =>
      (keepsKv_onRest _).bind fun _ => .pure _
  · exact (keepsKv_arg _).bind fun _ => (keepsKv_arg _).bind fun _ =>
      (keepsKv_requireProvider _).bind fun _ => (keepsKv_onRest _).bind fun _ =>
      (keepsKv_onRest _).bind fun _ => .pure _
  · exact (keepsKv_arg _).bind fun _ => (keepsKv_requireProvider _).bind fun _ =>
      (keepsKv_onRest _).bind fun _ => (keepsKv_onRest _).bind fun _ => .pure _
  · refine (keepsKv_arg _).bind fun _ => (keepsKv_arg _).bind fun _ =>
      (keepsKv_requireProvider _).bind fun _ => ?_
    split
    · exact .pure _
    · exact keepsKv_onRest _

theorem keepsKv_inherited {method : JsString} {handler : Handler ρ}
    (h : inheritedHandler method = some handler) : KeepsKv kv (handler caller args) := by
  simp only [inheritedHandler] at h
  split at h
  · cases h
    exact .pure _
  · split at h
    · cases h
      exact .pure _
    · split at h
      · cases h
        dsimp only
        split
        · exact .throw _
        · exact .throw _
        · exact .pure _
      · split at h
        · cases h
          exact .throw _
        · split at h
          · cases h
            exact .throw _
          · cases h

/-! ### The calls -/

theorem get_filter_ne (kv : Obj JsString) (k k' : JsString) :
    Obj.get (kv.filter fun e => e.1 != k) k' = if k = k' then none else Obj.get kv k' := by
  induction kv with
  | nil => simp
  | cons e kv ih =>
    by_cases he : e.1 = k
    · rw [List.filter_cons_of_neg (by simpa using he), ih, Obj.get_cons, he]
      split_ifs <;> rfl
    · rw [List.filter_cons_of_pos (by simpa using he), Obj.get_cons, ih, Obj.get_cons]
      by_cases hk : e.1 = k'
      · rw [if_pos hk, if_pos hk, if_neg fun heq => he (hk.trans heq.symm)]
      · rw [if_neg hk, if_neg hk]

/-- Rows with another table, under one id. -/
theorem kvOf_update (s : HostState ρ) (f : Obj JsString → Obj JsString) (id : JsString) (w : Write)
    (hw : w.place.1 = id)
    (hf : ∀ k, Obj.get (f (s.rows id).kv) k =
      if w.place.2 = k then w.value else Obj.get (s.rows id).kv k) :
    kvOf { s with rows := Function.update s.rows id { s.rows id with kv := f (s.rows id).kv } } =
      (kvOf s).write w := by
  funext other k
  by_cases hother : other = id
  · subst hother
    simp only [kvOf, Function.update_self, hf, Kv.write, Prod.ext_iff, hw, true_and]
  · have hne : w.place ≠ (other, k) := fun heq => hother (by rw [← hw, heq])
    simp only [kvOf, Function.update_of_ne hother, Kv.write, if_neg hne]

theorem kvOf_statePut (caller args : Value) (s : HostState ρ) :
    kvOf (statePut deps caller args s).2 = (putOf deps caller args).elim (kvOf s) (kvOf s).write := by
  unfold statePut putOf boundArg arg modifyRows
  rcases args.destructure (js "args") (js "key") with e | key
  · rfl
  rcases args.destructure (js "args") (js "value") with e | value
  · cases (Except.ok key : Except JsError Value).toOption.bind fun v => (deps.bind v).toOption <;> rfl
  simp only [Act.ofExcept_ok_bind, Except.toOption, Option.bind_some]
  rcases deps.bind key with e | k
  · rfl
  simp only [Act.ofExcept_ok_bind, Option.bind_some]
  rcases deps.bind value with e | v
  · rfl
  simp only [Act.ofExcept_ok_bind, Option.bind_some]
  rcases deps.bind caller with e | id
  · rfl
  · exact kvOf_update s (fun kv => Obj.setOwn kv k v) id (.put id k v) rfl fun k' => Obj.get_setOwn _ _ _ _

theorem kvOf_stateDelete (caller args : Value) (s : HostState ρ) :
    kvOf (stateDelete deps caller args s).2 = (deleteOf deps caller args).elim (kvOf s) (kvOf s).write := by
  unfold stateDelete deleteOf boundArg arg modifyRows
  rcases args.destructure (js "args") (js "key") with e | key
  · rfl
  simp only [Act.ofExcept_ok_bind, Except.toOption, Option.bind_some]
  rcases deps.bind key with e | k
  · rfl
  simp only [Act.ofExcept_ok_bind, Option.bind_some]
  rcases deps.bind caller with e | id
  · rfl
  · exact kvOf_update s (fun kv => kv.filter fun e => e.1 != k) id (.delete id k) rfl fun k' => get_filter_ne _ _ _

variable (deps) in
/-- A call that is read goes to its handler. -/
theorem dispatch_of_readCall {method : JsString} (h : readCall params = some (caller, method, args)) :
    ∃ parts, dispatch deps params = match lookupHandler deps method with
      | none => deny parts []
      | some handler => handler caller args := by
  revert h
  unfold readCall dispatch
  rcases params.destructure (js "params") (js "pluginId") with e | pluginId
  · simp [Except.toOption]
  rcases params.destructure (js "params") (js "method") with e | methodValue
  · simp [Except.toOption]
  rcases params.destructure (js "params") (js "args") with e | args'
  · simp [Except.toOption]
  simp only [Act.ofExcept_ok_bind, Except.toOption, Option.bind_eq_bind, Option.bind_some]
  rcases methodValue.toText with e | text
  · simp
  · rintro ⟨⟩
    exact ⟨_, rfl⟩

/-- A call that cannot be read does nothing. -/
theorem dispatch_of_unread (h : readCall params = none) (s : HostState ρ) :
    (dispatch deps params s).2 = s := by
  revert h
  unfold readCall dispatch
  rcases params.destructure (js "params") (js "pluginId") with e | pluginId
  · exact fun _ => rfl
  rcases params.destructure (js "params") (js "method") with e | methodValue
  · exact fun _ => rfl
  rcases params.destructure (js "params") (js "args") with e | args'
  · exact fun _ => rfl
  simp only [Act.ofExcept_ok_bind, Except.toOption, Option.bind_eq_bind, Option.bind_some]
  rcases methodValue.toText with e | text
  · exact fun _ => rfl
  · exact nofun

/-- **What one host call does to the store**: its write, and nothing where it is no write or fails. -/
theorem kvOf_dispatch (params : Value) (s : HostState ρ) :
    kvOf (dispatch deps params s).2 = (writeOf deps params).elim (kvOf s) (kvOf s).write := by
  rcases hread : readCall params with _ | ⟨caller, method, args⟩
  · rw [dispatch_of_unread hread, writeOf, hread]
    rfl
  obtain ⟨parts, hdispatch⟩ := dispatch_of_readCall deps hread
  rw [hdispatch, writeOf, hread, Option.bind_some]
  dsimp only
  by_cases hput : method = js "state.put"
  · subst hput
    exact kvOf_statePut caller args s
  by_cases hdelete : method = js "state.delete"
  · subst hdelete
    exact kvOf_stateDelete caller args s
  rw [if_neg hput, if_neg hdelete]
  rcases hhandler : lookupHandler deps method with _ | handler
  · exact (keepsKv_deny parts []).final rfl
  · rcases Option.or_eq_some_iff.mp hhandler with hown | ⟨-, hinherited⟩
    · obtain ⟨e, he, rfl⟩ := Option.map_eq_some_iff.mp hown
      have hkey : e.1 = method := by simpa using List.find?_some he
      exact (keepsKv_handlers e (List.mem_of_find?_eq_some he) (hkey ▸ hput) (hkey ▸ hdelete)).final rfl
    · exact (keepsKv_inherited hinherited).final rfl

/-- What one `state.get` is answered with. -/
theorem dispatch_reads (h : Reads deps params pluginId key) (s : HostState ρ) :
    (dispatch deps params s).1 =
      .ok (.obj [(js "value", ((kvOf s pluginId key).map Json.str).getD .null)]) := by
  obtain ⟨caller, args, hread, hcaller, hkey⟩ := h
  obtain ⟨parts, hdispatch⟩ := dispatch_of_readCall deps hread
  rw [hdispatch]
  change (stateGet deps caller args s).1 = _
  revert hcaller hkey
  unfold boundArg stateGet arg rowsOf
  rcases args.destructure (js "args") (js "key") with e | k
  · exact fun _ => nofun
  simp only [Act.ofExcept_ok_bind, Except.toOption, Option.bind_some]
  rcases deps.bind caller with e | id
  · exact nofun
  simp only [Act.ofExcept_ok_bind]
  rcases deps.bind k with e | k
  · exact fun _ => nofun
  · rintro ⟨⟩ ⟨⟩
    rfl

end Calls

/-! ### Runs -/

section Runs

variable {ρ : Type} (deps : HostDeps ρ)

/-- What happens to the host: a host call, or anything that leaves `plugin_kv` alone. -/
inductive Event (ρ : Type) where
  | call (params : Value)
  | outside (f : HostState ρ → HostState ρ) (hf : ∀ s, kvOf (f s) = kvOf s)

/-- One after the other. -/
def run (s : HostState ρ) : List (Event ρ) → HostState ρ
  | [] => s
  | .call params :: events => run (dispatch deps params s).2 events
  | .outside f _ :: events => run (f s) events

/-- What the events write. -/
def writesOf (events : List (Event ρ)) : List Write := events.filterMap fun e =>
  match e with
  | .call params => writeOf deps params
  | .outside _ _ => none

variable {deps}

/-- The table holds what was written. -/
theorem kvOf_run (s : HostState ρ) (events : List (Event ρ)) :
    kvOf (run deps s events) = (writesOf deps events).foldl Kv.write (kvOf s) := by
  induction events generalizing s with
  | nil => rfl
  | cons e events ih =>
    cases e with
    | call params =>
      rw [run, ih, kvOf_dispatch]
      cases hwrite : writeOf deps params <;> simp [writesOf, hwrite]
    | outside f hf =>
      rw [run, ih, hf]
      rfl

/-- **Every `state.get` is answered with what the plugin put there last**, whatever host calls and
whatever else came between. -/
theorem kv_last_write {params : Value} {pluginId key : JsString} (hreads : Reads deps params pluginId key)
    (s : HostState ρ) (events : List (Event ρ)) :
    (dispatch deps params (run deps s events)).1 = .ok (.obj [(js "value",
      ((lastWrite (kvOf s) (writesOf deps events) pluginId key).map Json.str).getD .null)]) := by
  rw [dispatch_reads hreads, kvOf_run, foldl_write]

end Runs

/-- A host call of a plugin. -/
def hostCall (pluginId method : String) (args : List (String × String)) : Value :=
  some (.obj [(js "pluginId", .str (js pluginId)), (js "method", .str (js method)),
    (js "args", .obj (args.map fun e => (js e.1, .str (js e.2))))])

/-- Two plugins with one key, of which the second deletes its own. -/
theorem kv_last_write_sample :
    (dispatch Pluginhost.secretsHost (hostCall "echo" "state.get" [("key", "cursor")])
      (run Pluginhost.secretsHost Pluginhost.issuerState
        [.call (hostCall "echo" "state.put" [("key", "cursor"), ("value", "7")]),
          .call (hostCall "cert-letsencrypt-dns01" "state.delete" [("key", "cursor")]),
          .call (hostCall "echo" "secrets.get" [("name", "cursor")])])).1 =
      .ok (.obj [(js "value", .str (js "7"))]) :=
  have hreads : Reads Pluginhost.secretsHost (hostCall "echo" "state.get" [("key", "cursor")])
      (js "echo") (js "cursor") :=
    ⟨some (.str (js "echo")), some (.obj [(js "key", .str (js "cursor"))]), rfl, rfl, rfl⟩
  kv_last_write hreads _ _

end PluginKv

end Wanfw.Orchestrator
