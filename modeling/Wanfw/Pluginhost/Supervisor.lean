import Wanfw.Orchestrator.HostApi

/-!
# The plugin host's supervisor

`pluginhost/src/supervisor.ts`, the `invoke` job: a plugin runs in a child process,
and its `host.call` requests are forwarded to the orchestrator, tagged with the ids of
the job. The tag is the first part of an object literal and the child's parameters are
spread after it, so that a parameter of the same name replaces the tag.

`own_call_iff`: the forwarded call is the invoked plugin's own exactly when the child
sends no other `pluginId` and no other `invocationId` along.
-/

namespace Wanfw.Pluginhost

open Wanfw.Js Wanfw.Orchestrator

/-- `InvocationJob`, as far as the forwarding reads it. -/
structure InvocationJob where
  invocationId : JsString
  pluginId : JsString

/-- `{ invocationId: job.invocationId, pluginId: job.pluginId, ...params }`. -/
def forward (job : InvocationJob) (params : Value) : Obj Json :=
  Obj.spread [(js "invocationId", .str job.invocationId), (js "pluginId", .str job.pluginId)] params.ownProps

/-- The call speaks for the plugin that was invoked: it carries the ids of the job, and what the
dispatcher makes of it depends on the rows of this plugin alone and changes no other's. -/
structure OwnCall (job : InvocationJob) (params : Value) : Prop where
  invocationId : Obj.get (forward job params) (js "invocationId") = some (.str job.invocationId)
  pluginId : Obj.get (forward job params) (js "pluginId") = some (.str job.pluginId)
  authority : ∀ (ρ : Type) (deps : HostDeps ρ), Local job.pluginId (dispatch deps (some (.obj (forward job params))))

/-- The child sends no such parameter, or the job's own id. -/
def SendsOnly (params : Value) (key : String) (own : JsString) : Prop :=
  ∀ v, Obj.get params.ownProps (js key) = some v → v = .str own

theorem get_forward (job : InvocationJob) {params : Value} (hparams : (Obj.keys params.ownProps).Nodup) (k : JsString) :
    Obj.get (forward job params) k = (Obj.get params.ownProps k).or
      (Obj.get [(js "invocationId", .str job.invocationId), (js "pluginId", .str job.pluginId)] k) :=
  Obj.get_spread _ _ hparams k

theorem or_eq_own_iff {v : Value} {own : Json} : v.or (some own) = some own ↔ ∀ x, v = some x → x = own := by
  cases v with
  | none => simp
  | some x => simp

/-- **When a child speaks for its own plugin.** For every job and every parameters the child sends. -/
theorem own_call_iff (job : InvocationJob) {params : Value} (hparams : (Obj.keys params.ownProps).Nodup) :
    OwnCall job params ↔ SendsOnly params "pluginId" job.pluginId ∧ SendsOnly params "invocationId" job.invocationId := by
  have hinvocation := get_forward job hparams (js "invocationId")
  have hplugin := get_forward job hparams (js "pluginId")
  rw [show Obj.get [(js "invocationId", Json.str job.invocationId), (js "pluginId", .str job.pluginId)]
    (js "invocationId") = some (.str job.invocationId) from rfl] at hinvocation
  rw [show Obj.get [(js "invocationId", Json.str job.invocationId), (js "pluginId", .str job.pluginId)]
    (js "pluginId") = some (.str job.pluginId) from rfl] at hplugin
  constructor
  · intro h
    constructor
    · exact or_eq_own_iff.mp (hplugin ▸ h.pluginId)
    · exact or_eq_own_iff.mp (hinvocation ▸ h.invocationId)
  · rintro ⟨hp, hi⟩
    have hown : Obj.get (forward job params) (js "pluginId") = some (.str job.pluginId) :=
      hplugin.trans (or_eq_own_iff.mpr hp)
    refine ⟨hinvocation.trans (or_eq_own_iff.mpr hi), hown, fun ρ deps => dispatch_local ?_⟩
    rw [Value.destructure, Json.prop, hown]
    simp

/-- A call of `state.get` with nothing else. -/
theorem own_call_state_get :
    OwnCall ⟨js "1", js "echo"⟩
      (some (.obj [(js "method", .str (js "state.get")), (js "args", .obj [(js "key", .str (js "k"))])])) := by
  refine (own_call_iff ⟨js "1", js "echo"⟩ (by decide)).mpr ⟨?_, ?_⟩
  · intro v hv
    cases hv
  · intro v hv
    cases hv

/-! ### A child that speaks for another plugin -/

/-- A host with a secrets store and nothing else. -/
def secretsHost : HostDeps (Obj JsString) where
  bind
    | some (.str s) => .ok s
    | _ => .error (.typeError (js "SQLite3 can only bind numbers, strings, bigints, buffers, and null"))
  bind_str _ := rfl
  getSecret name := do
    let secrets ← Act.get
    match name with
    | some (.str n) => return (Obj.get secrets n).map Json.str
    | _ => Act.throw (.typeError (js "The \"path\" argument must be of type string."))
  putSecret _ _ := pure ()
  storeCert _ _ _ _ := pure .null
  onCertChange := pure ()
  manifestTypes _ := pure []
  allocateIp _ _ := pure none
  releaseIp _ := pure ()
  probeNetwork := none
  dnsProvider := pure none
  pluginInvoker _ _ _ := pure (.error none)
  log _ _ := pure ()

/-- The certificate issuer may read its own secrets; no other plugin has a grant. -/
def issuerState : HostState (Obj JsString) where
  rows id :=
    if id = js "cert-letsencrypt-dns01" then
      ⟨[⟨id, js "secrets.read", some (.obj [(js "names", .arr [.str (js "cert-letsencrypt-dns01/*")])]), false⟩], [], []⟩
    else ⟨[], [], []⟩
  rest := [(js "cert-letsencrypt-dns01/acme-account-key", js "PEM")]

/-- What a child of `echo` sends to read the issuer's account key. -/
def forgedParams : Value :=
  some (.obj [(js "method", .str (js "secrets.get")),
    (js "args", .obj [(js "name", .str (js "cert-letsencrypt-dns01/acme-account-key"))]),
    (js "pluginId", .str (js "cert-letsencrypt-dns01"))])

/-- The text of an answer. -/
def answerText (r : Except JsError Json) : JsString :=
  match r with
  | .ok v => stringify v
  | .error e => e.message

/-- A child of `echo` reads the secret of another plugin: the forwarded call carries that plugin's
id and is answered with the key. -/
theorem own_call_forged :
    (Obj.get (forward ⟨js "1", js "echo"⟩ forgedParams) (js "pluginId")).map stringify =
        some (js "\"cert-letsencrypt-dns01\"") ∧
      answerText (dispatch secretsHost (some (.obj (forward ⟨js "1", js "echo"⟩ forgedParams))) issuerState).1 =
        js "\x7b\"value\":\"PEM\"\x7d" ∧
      ¬ OwnCall ⟨js "1", js "echo"⟩ forgedParams := by
  refine ⟨by decide +kernel, by decide +kernel, fun h => ?_⟩
  have hid := congrArg (Option.map stringify) h.pluginId
  revert hid
  decide +kernel

end Wanfw.Pluginhost
