import Wanfw.Orchestrator.Consent

/-!
# What the operator granted

VALIDATE checks a plan against the grants of the plugin that made it. A trust request takes
several blocks: it is asked for, the staged bundle is looked for and copied, and then the record
and the grants are written; a request for the built-ins goes on to the next one after each.
Between the blocks anything can happen, also that the plugin is untrusted.

`brought_up_granted`: in every history, each grant on which VALIDATE let a plan pass was written
by a trust request of the operator, for a manifest that declares it, and the plugin was not
untrusted between that and VALIDATE. A run stands in the history at its GATE, and what happens
between VALIDATE and GATE before it; a block of a request happens as a whole.
-/

namespace Wanfw.Orchestrator.Consent

open Wanfw.Js Wanfw.Schemas Wanfw.Store.History StateStore TrustFlow

/-! ### What the requests in flight are for -/

/-- What a trust request is to trust: a staged bundle, or a built-in. -/
inductive Want where
  | bundle (id sha256 : JsString)
  | builtin (b : Builtin)

/-- The manifest that comes with it, where the staging area is like this. -/
def Want.manifest (staged : List StagedBundle) : Want → Option Manifest
  | .bundle id sha256 => (findStagedBundle staged id sha256).bind StagedBundle.manifest
  | .builtin b => some b.manifest

/-- What a request in flight is still to trust. -/
inductive Wants {κ : Type} : StateStore.Task κ → Want → Prop
  | trusting (manager : ℕ) (id sha256 : JsString) : Wants (.trusting manager id sha256) (.bundle id sha256)
  | reading {builtins : List Builtin} {b : Builtin} (h : b ∈ builtins) :
    Wants (.readingBuiltins builtins) (.builtin b)
  | first (manager : ℕ) (b : Builtin) (rest : List Builtin) :
    Wants (.trustingBuiltin manager b rest) (.builtin b)
  | later (manager : ℕ) (b : Builtin) {rest : List Builtin} {b' : Builtin} (h : b' ∈ rest) :
    Wants (.trustingBuiltin manager b rest) (.builtin b')

/-- The event is the beginning of a request to trust it. -/
inductive Asks {κ : Type} : StateStore.Event κ → ℕ → Want → Prop
  | trust (request : ℕ) (id sha256 : JsString) : Asks (.trust request id sha256) request (.bundle id sha256)
  | builtins (request : ℕ) {builtins : List Builtin} {b : Builtin} (h : b ∈ builtins) :
    Asks (.trustBuiltins request builtins) request (.builtin b)

section Requests

variable {κ : Type} {N : Numerals} {S : SignatureScheme κ} {s : Admin κ} {request other : ℕ}
  {want : Want} {task : StateStore.Task κ}

/-- The request wants it, in this state. -/
def InFlight (s : Admin κ) (request : ℕ) (want : Want) : Prop :=
  ∃ task, s.tasks request = some task ∧ Wants task want

theorem inFlight_setTask {next : Option (StateStore.Task κ)}
    (h : InFlight (s.setTask other next) request want) :
    (request = other ∧ ∃ task, next = some task ∧ Wants task want) ∨ InFlight s request want := by
  obtain ⟨task, htask, hwants⟩ := h
  have htasks : (s.setTask other next).tasks = Function.update s.tasks other next := rfl
  rw [htasks] at htask
  by_cases hreq : request = other
  · subst hreq
    rw [Function.update_self] at htask
    exact .inl ⟨rfl, task, htask, hwants⟩
  · rw [Function.update_of_ne hreq] at htask
    exact .inr ⟨task, htask, hwants⟩

theorem inFlight_begin (h : InFlight (s.begin other task) request want) :
    request = other ∧ Wants task want ∨ InFlight s request want := by
  unfold Admin.begin at h
  split at h
  · refine (inFlight_setTask h).imp_left ?_
    rintro ⟨rfl, _, ⟨⟩, hwants⟩
    exact ⟨rfl, hwants⟩
  · exact .inr h

/-- A request goes on to something it wanted before. -/
theorem inFlight_of_next {next : Option (StateStore.Task κ)}
    (h : InFlight (s.setTask other next) request want)
    (hnext : ∀ task, next = some task → Wants task want →
        InFlight s other want) : InFlight s request want := by
  rcases inFlight_setTask h with ⟨rfl, task, htask, hwants⟩ | hbefore
  · exact hnext task htask hwants
  · exact hbefore

theorem inFlight_record {manager : ℕ} {now sha256 : JsString} {m : Manifest}
    (h : InFlight (s.record N S manager now m sha256) request want) : InFlight s request want := by
  obtain ⟨task, htask, hwants⟩ := h
  rw [tasks_record] at htask
  exact ⟨task, htask, hwants⟩

theorem inFlight_resume {staged : List StagedBundle} {now : JsString}
    (h : InFlight (s.resume N S other staged now) request want) : InFlight s request want := by
  unfold Admin.resume at h
  cases htask : s.tasks other with
  | none =>
    rw [htask] at h
    exact h
  | some task =>
    rw [htask] at h
    cases task with
    | rotateWriting | rotateWritten | reSigning | importWriting | importWritten | publishing =>
      refine (inFlight_setTask h).resolve_left ?_
      rintro ⟨-, _, hnext, hwants⟩
      cases hnext <;> cases hwants
    | trusting manager id sha256 =>
      dsimp only at h
      split at h
      · exact inFlight_of_next h (by simp)
      · refine inFlight_record (inFlight_of_next h ?_)
        rintro task ⟨⟩ hwants
        cases hwants
    | readingBuiltins builtins =>
      cases builtins with
      | nil =>
        refine inFlight_of_next h ?_
        rintro task ⟨⟩ hwants
        cases hwants
      | cons b rest =>
        refine inFlight_of_next h ?_
        rintro task ⟨⟩ hwants
        cases hwants with
        | first => exact ⟨_, htask, .reading (by simp)⟩
        | later _ _ hmem => exact ⟨_, htask, .reading (by simp [hmem])⟩
    | trustingBuiltin manager b rest =>
      have hbefore : InFlight (s.record N S manager now b.manifest b.sha256) request want := by
        refine inFlight_of_next h ?_
        rintro task ⟨⟩ hwants
        cases hwants with
        | reading hmem =>
          exact ⟨_, (congrFun (tasks_record _ _ _ _) other).trans htask, .later manager b hmem⟩
      exact inFlight_record hbefore

/-- **What a request wants was asked for when it began.** -/
theorem inFlight_step {event : StateStore.Event κ} (h : InFlight (s.step N S event) request want) :
    Asks event request want ∨ InFlight s request want := by
  cases event with
  | rotate request' key =>
    refine .inr ((inFlight_begin h).resolve_left ?_)
    rintro ⟨-, hwants⟩
    cases hwants
  | importKey request' key =>
    refine .inr ((inFlight_begin h).resolve_left ?_)
    rintro ⟨-, hwants⟩
    cases hwants
  | trust request' id sha256 =>
    refine (inFlight_begin h).imp_left ?_
    rintro ⟨rfl, ⟨⟩⟩
    exact .trust _ _ _
  | trustBuiltins request' builtins =>
    refine (inFlight_begin h).imp_left ?_
    rintro ⟨rfl, hwants⟩
    cases hwants with
    | reading hmem => exact .builtins _ hmem
  | untrust id now =>
    right
    unfold Admin.step at h
    dsimp only at h
    split at h <;> exact h
  | approve services serviceId projectionHash now =>
    right
    unfold Admin.step at h
    dsimp only at h
    split at h <;> exact h
  | resume request' staged now => exact .inr (inFlight_resume h)
  | fail request' =>
    right
    unfold Admin.step Admin.fail at h
    dsimp only at h
    split at h
    · exact h
    · exact inFlight_of_next h (by simp)

/-- A manifest that is recorded is that of a bundle which the request wants. -/
theorem inFlight_of_records {event : StateStore.Event κ} {m : Manifest} (h : Records s event m) :
    ∃ request staged now want, event = .resume request staged now ∧ InFlight s request want ∧
      want.manifest staged = some m := by
  obtain ⟨request, staged, now, task, rfl, htask, hm⟩ := h
  cases task with
  | trusting manager id sha256 =>
    exact ⟨_, _, _, .bundle id sha256, rfl, ⟨_, htask, .trusting _ _ _⟩, hm⟩
  | trustingBuiltin manager b rest => exact ⟨_, _, _, .builtin b, rfl, ⟨_, htask, .first _ _ _⟩, hm⟩
  | _ => cases hm

end Requests

/-! ### Records beside grants -/

section Backing

variable {κ : Type} {N : Numerals} {S : SignatureScheme κ} {s : Admin κ} {t : Tables} {key : κ}
  {id : JsString} {event : StateStore.Event κ}

/-- The plugin has a live record. -/
def HasRecord (id : JsString) (t : Tables) : Prop := ∃ r, t.LiveRecord r ∧ r.pluginId = id

/-- A live grant stands beside a live record of its plugin. So an untrust call that finds no record
has no grant to revoke. -/
def Backed (t : Tables) : Prop := ∀ g, t.LiveGrant g → HasRecord g.pluginId t

theorem HasRecord.of_same {t' : Tables} (h : HasRecord id t)
    (hsame : t'.trustRecords = t.trustRecords) : HasRecord id t' := by
  obtain ⟨r, ⟨hr, hlive⟩, hid⟩ := h
  exact ⟨r, ⟨hsame ▸ hr, hlive⟩, hid⟩

theorem keeps_hasRecord : Act.Keeps (HasRecord id) (reSignAll N S key) := by
  refine Act.Keeps.get.bind fun t => (Act.Keeps.forEach fun record _ => ?_).bind fun _ =>
    Act.Keeps.get.bind fun t => (Act.Keeps.forEach fun grant _ => ?_).bind fun _ =>
    Act.Keeps.get.bind fun t => Act.Keeps.forEach fun approval _ => ?_
  · refine Act.Keeps.bind (Act.Triple.ofExcept (fun _ _ _ h => h) fun _ _ _ h => h)
      fun payload => Act.Keeps.modify fun t ht => ?_
    obtain ⟨r, ⟨hr, hlive⟩, hid⟩ := ht
    refine ⟨if r.key = record.key then { r with sig := S.sign key payload } else r, ⟨?_, ?_⟩, ?_⟩
    · dsimp only [setRecordSig]
      exact Store.Table.mem_update.mpr ⟨r, hr, by simp⟩
    · split <;> exact hlive
    · split <;> exact hid
  · exact Act.Keeps.bind (Act.Triple.ofExcept (fun _ _ _ h => h) fun _ _ _ h => h) fun payload =>
      Act.Keeps.modify fun t ht => ht.of_same rfl
  · exact Act.Keeps.modify fun t ht => ht.of_same rfl

theorem hasRecord_record {m : Manifest} {manager : ℕ} {now sha256 : JsString}
    (h : m.id = id ∨ HasRecord id s.tables) : HasRecord id (s.record N S manager now m sha256).tables := by
  unfold Admin.record
  rw [recordTrustAndGrants_eq]
  refine HasRecord.of_same (t := s.tables.insertTrustRecord (signedRecord S (s.managers manager) now m sha256)) ?_
    (writeAll_insertGrant _ _).2
  by_cases hm : m.id = id
  · exact ⟨_, Tables.liveRecord_insertTrustRecord.mpr (.inl rfl), hm⟩
  · obtain ⟨r, hr, rfl⟩ := h.resolve_left hm
    exact ⟨r, Tables.liveRecord_insertTrustRecord.mpr (.inr ⟨hr, fun hkey => hm (congrArg Prod.fst hkey).symm⟩),
      rfl⟩

theorem tables_untrust (id now : JsString) : (s.step N S (.untrust id now)).tables =
    attempt N S s.tables (.untrustPlugin ⟨s.key, [], now⟩ id) none := by
  unfold Admin.step attempt TrustFlow.Call.writes TrustFlow.Call.outcome
  dsimp only
  cases untrustPlugin (⟨s.key, [], now⟩ : TrustFlowDeps κ) id s.tables with
  | error e => rfl
  | ok outcome => rfl

/-- **What an untrust request leaves** of grants that stand beside records. -/
theorem live_untrust (hbacked : Backed s.tables) {now : JsString} {g : StateStore.GrantRow}
    (hg : (s.step N S (.untrust id now)).tables.LiveGrant g) :
    s.tables.LiveGrant g ∧ g.pluginId ≠ id := by
  rw [tables_untrust] at hg
  by_cases hlive : s.tables.recordsOf id = []
  · rw [attempt_of_untrusts_nil rfl hlive] at hg
    refine ⟨hg, fun hid => ?_⟩
    obtain ⟨r, hr, hrid⟩ := hbacked g hg
    have hmem := Tables.mem_recordsOf.mpr ⟨hr, hrid.trans hid⟩
    rw [hlive] at hmem
    cases hmem
  · exact ((attempt_of_untrusts rfl hlive).2 g).mp hg

theorem hasRecord_untrust {other now : JsString} (hne : other ≠ id) (h : HasRecord id s.tables) :
    HasRecord id (s.step N S (.untrust other now)).tables := by
  rw [tables_untrust]
  by_cases hlive : s.tables.recordsOf other = []
  · rwa [attempt_of_untrusts_nil rfl hlive]
  · obtain ⟨r, hr, hid⟩ := h
    exact ⟨r, ((attempt_of_untrusts rfl hlive).1 r).mpr ⟨hr, fun hother => hne (hother.symm.trans hid)⟩, hid⟩

theorem hasRecord_resume {request : ℕ} {staged : List StagedBundle} {now : JsString}
    (h : (∃ m, Records s (.resume request staged now) m ∧ m.id = id) ∨ HasRecord id s.tables) :
    HasRecord id (s.resume N S request staged now).tables := by
  unfold Admin.resume
  cases htask : s.tasks request with
  | none =>
    refine h.resolve_left ?_
    rintro ⟨_, ⟨_, _, _, _, heq, hsome, -⟩, -⟩
    cases heq
    rw [htask] at hsome
    cases hsome
  | some task =>
    simp only [records_resume htask] at h
    cases task with
    | reSigning => exact keeps_hasRecord.final (h.resolve_left (by simp [recorded]))
    | trusting manager id' sha256 =>
      dsimp only
      cases hfound : (findStagedBundle staged id' sha256).bind StagedBundle.manifest with
      | none => exact h.resolve_left (by simp [recorded, hfound])
      | some m => exact hasRecord_record (h.imp_left (by simp [recorded, hfound]))
    | trustingBuiltin manager b rest => exact hasRecord_record (h.imp_left (by simp [recorded]))
    | readingBuiltins builtins => cases builtins <;> exact h.resolve_left (by simp [recorded])
    | _ => exact h.resolve_left (by simp [recorded])

theorem hasRecord_step (hne : ∀ now, event ≠ .untrust id now)
    (h : (∃ m, Records s event m ∧ m.id = id) ∨ HasRecord id s.tables) : HasRecord id
    (s.step N S event).tables := by
  have hold : (∀ request staged now, event ≠ .resume request staged now) → HasRecord id s.tables := by
    intro hno
    refine h.resolve_left ?_
    rintro ⟨m, ⟨request, staged, now, -, heq, -⟩, -⟩
    exact hno request staged now heq
  cases event with
  | rotate | importKey | trust | trustBuiltins =>
    refine (hold (by simp)).of_same ?_
    unfold Admin.step
    rw [tables_begin]
  | untrust other now => exact hasRecord_untrust (fun heq => hne now (heq ▸ rfl)) (hold (by simp))
  | approve services serviceId projectionHash now =>
    refine (hold (by simp)).of_same ?_
    unfold Admin.step
    dsimp only
    split <;> rfl
  | resume request staged now => exact hasRecord_resume h
  | fail request =>
    refine (hold (by simp)).of_same ?_
    unfold Admin.step Admin.fail
    dsimp only
    split <;> rfl

end Backing

/-! ### Grants in force -/

section Grants

variable {κ : Type} (N : Numerals) (S : SignatureScheme κ) (start : System κ)

/-- The event is a block of a request of this process in which the operator asked to trust this
manifest, and records it. -/
structure Trusts (history : List (Happening κ)) (x : Happening κ) (m : Manifest) : Prop where
  block : ∃ request staged now want, x = .request (.resume request staged now) ∧ want.manifest staged = some m ∧
    Since (fun _ y => ∃ event, y = .request event ∧ Asks event request want) (fun y => y = .restart) history

/-- The operator had the plugin trusted with a manifest that declares the capability, and did not
have it untrusted since. -/
def Granted (history : List (Happening κ)) (pluginId : JsString) (grant : Grant) : Prop :=
  Since (fun before x => ∃ m c, Trusts before x m ∧ m.id = pluginId ∧ c ∈ m.capabilities ∧
    grant = ⟨c.cap, .obj c.scope⟩)
    (fun y => ∃ now, y = .request (.untrust pluginId now)) history

/-- At the start nothing is granted, and no request is in flight. -/
structure Ungranted (s : System κ) : Prop where
  grants : ∀ g, ¬ s.admin.tables.LiveGrant g
  quiet : s.admin.Quiet

variable {N S start} {history : List (Happening κ)}

/-- An event of the socket that is no approval is what it is. -/
theorem onSnapshot_of_asks {services : Obj GatedService} {event : StateStore.Event κ} {request : ℕ}
    {want : Want} (h : Asks (onSnapshot services event) request want) : Asks event request want := by
  cases event with
  | approve => cases h
  | _ => exact h

theorem asked_of_inFlight (hfresh : Ungranted start) {request : ℕ} {want : Want}
    (h : InFlight (start.run N S history).admin request want) :
    Since (fun _ y => ∃ event, y = .request event ∧ Asks event request want) (fun y => y = .restart) history := by
  refine since_of_holds (fun h (i : ℕ × Want) => InFlight (start.run N S h).admin i.1 i.2)
    (C := fun i _ y => ∃ event, y = .request event ∧ Asks event i.1 i.2)
    (D := fun _ y => y = .restart) ?_ ?_ history (request, want) h
  · rintro ⟨request, want⟩ ⟨task, htask, -⟩
    rw [System.run, List.foldl_nil, hfresh.quiet] at htask
    cases htask
  · rintro h x ⟨request, want⟩ hin
    rw [System.run_concat] at hin
    cases x with
    | request event =>
      refine (inFlight_step hin).imp (fun hasks => ⟨event, rfl, onSnapshot_of_asks hasks⟩) fun hold => ⟨hold, by simp⟩
    | revoke projectionHash now =>
      refine .inr ⟨?_, by simp⟩
      unfold System.step at hin
      dsimp only at hin
      split at hin <;> exact hin
    | run env => exact .inr ⟨hin, by simp⟩
    | restart =>
      obtain ⟨task, htask, -⟩ := hin
      cases htask

theorem backed_revoke {t : Tables} (h : Backed t) (hash now : JsString) : Backed (t.revokeApproval hash now) :=
  fun g hg => (h g hg).of_same rfl

theorem backed_run (hfresh : Ungranted start) (history : List (Happening κ)) :
    Backed (start.run N S history).admin.tables := by
  induction history using List.reverseRecOn with
  | nil => exact fun g hg => absurd hg (hfresh.grants g)
  | append_singleton history x ih =>
    rw [System.run_concat]
    cases x with
    | revoke projectionHash now =>
      unfold System.step
      dsimp only
      split
      · exact backed_revoke ih _ _
      · exact ih
    | run env => exact ih
    | restart => exact ih
    | request event =>
      intro g hg
      let s := (start.run N S history).admin
      let event := onSnapshot (start.run N S history).world.gateHolder event
      have hlive : LiveRows (fun _ => True)
          (fun g => (∃ m, Records s event m ∧ m.id = g.pluginId) ∨ HasRecord g.pluginId s.tables)
          (fun _ => True) (s.step N S event).tables := by
        refine liveRows_step ⟨fun _ _ => trivial, fun g hg => .inr (ih g hg), fun _ _ => trivial⟩
          ⟨fun _ _ _ => trivial, fun _ _ hg => hg, fun _ _ _ => trivial⟩ _ ?_
          fun _ _ _ _ _ _ _ => trivial
        exact fun m hm _ _ _ => ⟨trivial, fun c _ n => .inl ⟨m, hm, rfl⟩⟩
      refine hasRecord_step (fun now heq => ?_) (hlive.grants g hg)
      have hlater : (s.step N S (.untrust g.pluginId now)).tables.LiveGrant g := heq ▸ hg
      exact (live_untrust ih hlater).2 rfl

/-- **Every grant in force was given by the operator.** -/
theorem granted_of_live (hfresh : Ungranted start) {g : StateStore.GrantRow} {scope : Json}
    (hg : (start.run N S history).admin.tables.LiveGrant g) (hscope : parse N g.scopeJson = some scope) :
    Granted history g.pluginId ⟨g.cap, scope⟩ := by
  let C (i : JsString × Grant) (before : List (Happening κ)) (x : Happening κ) : Prop :=
    ∃ m c, Trusts before x m ∧ m.id = i.1 ∧ c ∈ m.capabilities ∧ i.2 = ⟨c.cap, .obj c.scope⟩
  let Live (h : List (Happening κ)) (i : JsString × Grant) : Prop :=
    ∃ g, (start.run N S h).admin.tables.LiveGrant g ∧
      g.pluginId = i.1 ∧ g.cap = i.2.cap ∧ parse N g.scopeJson = some i.2.scope
  refine since_of_holds Live (C := C) (D := fun i y => ∃ now, y = .request (.untrust i.1 now)) ?_ ?_ history
    (g.pluginId, ⟨g.cap, scope⟩) ⟨g, hg, rfl, rfl, hscope⟩
  · rintro i ⟨g, hg, -⟩
    exact hfresh.grants g hg
  rintro h x ⟨pluginId, grant⟩ ⟨g, hg, rfl, hcap, hscope⟩
  rw [System.run_concat] at hg
  cases x with
  | request event =>
    let s := (start.run N S h).admin
    have hlive : LiveRows (fun _ => True)
        (fun g => ∀ scope, parse N g.scopeJson = some scope →
          C (g.pluginId, ⟨g.cap, scope⟩) h (.request event) ∨ Live h (g.pluginId, ⟨g.cap, scope⟩))
        (fun _ => True) (s.step N S (onSnapshot (start.run N S h).world.gateHolder event)).tables := by
      refine liveRows_step
        ⟨fun _ _ => trivial, fun g hg scope hscope => .inr ⟨g, hg, rfl, rfl, hscope⟩, fun _ _ => trivial⟩
        ⟨fun _ _ _ => trivial, fun _ _ hg => hg, fun _ _ _ => trivial⟩ _ ?_ fun _ _ _ _ _ _ _ => trivial
      intro m hm key now sha256
      refine ⟨trivial, fun c hc n scope hscope => .inl ?_⟩
      obtain ⟨request, staged, now, want, hevent, hin, hwant⟩ := inFlight_of_records hm
      have hresume : event = .resume request staged now := by
        cases event with
        | approve => cases hevent
        | _ => exact hevent
      refine ⟨m, c, ⟨request, staged, now, want, by rw [hresume], hwant, asked_of_inFlight hfresh hin⟩, rfl, hc, ?_⟩
      have hparsed : some scope = some (.obj c.scope) :=
        hscope.symm.trans (parse_stringify c.scope_proper)
      rw [Option.some.inj hparsed]
      rfl
    refine (hlive.grants g hg grant.scope hscope).imp (fun hC => ?_) fun hold => ⟨?_, ?_⟩
    · rwa [hcap] at hC
    · rwa [hcap] at hold
    · rintro ⟨now, heq⟩
      cases heq
      have hlater : (s.step N S (.untrust g.pluginId now)).tables.LiveGrant g := hg
      exact (live_untrust (backed_run hfresh h) hlater).2 rfl
  | revoke projectionHash now =>
    refine .inr ⟨⟨g, ?_, rfl, hcap, hscope⟩, by simp⟩
    unfold System.step at hg
    dsimp only at hg
    split at hg <;> exact hg
  | run env => exact .inr ⟨⟨g, hg, rfl, hcap, hscope⟩, by simp⟩
  | restart => exact .inr ⟨⟨g, hg, rfl, hcap, hscope⟩, by simp⟩

end Grants

/-! ### What EXECUTE brings up -/

section Runs

variable {κ : Type} {N : Numerals} {S : SignatureScheme κ} {start : System κ}
  {earlier later : List (Happening κ)} {env : Env}

/-- The plan stays within what the operator granted the plugin that the service is bound to. -/
structure Licensed (history : List (Happening κ)) (env : Env) (serviceId : JsString)
    (plan : ContainerSpec) : Prop where
  settled : ∃ ds pluginId grants, env.load = .ok ds ∧ PlannedBy env ds serviceId plan ∧
    boundDeployPluginId ds serviceId = some pluginId ∧ Accepted serviceId plan grants ∧
    ∀ grant ∈ grants, Granted history pluginId grant

theorem mem_mapM {α β : Type} {f : α → Except JsError β} {xs : List α} {ys : List β} {y : β}
    (h : xs.mapM f = .ok ys) (hy : y ∈ ys) : ∃ x ∈ xs, f x = .ok y := by
  induction xs generalizing ys with
  | nil =>
    cases h
    cases hy
  | cons x xs ih =>
    rw [List.mapM_cons] at h
    obtain ⟨z, hz, h⟩ := except_bind_ok.mp h
    obtain ⟨zs, hzs, h⟩ := except_bind_ok.mp h
    cases h
    rcases List.mem_cons.mp hy with rfl | hy
    · exact ⟨x, by simp, hz⟩
    · obtain ⟨x', hx', hfx'⟩ := ih hzs hy
      exact ⟨x', by simp [hx'], hfx'⟩

/-- The grants that VALIDATE checks against are live. -/
theorem live_of_loadGrants {t : Tables} {pluginId : JsString} {grants : List Grant} {grant : Grant}
    (h : loadGrantsForPlugin (storeOf N t) pluginId = .ok grants) (hmem : grant ∈ grants) :
    ∃ g, t.LiveGrant g ∧ g.pluginId = pluginId ∧ g.cap = grant.cap ∧
        parse N g.scopeJson = some grant.scope := by
  obtain ⟨row, hrow, hgrant⟩ := mem_mapM h hmem
  obtain ⟨hrow, hkeep⟩ := List.mem_filter.mp hrow
  obtain ⟨g, hg, rfl⟩ := List.mem_map.mp hrow
  simp only [decide_eq_true_eq, Option.isSome_eq_false_iff, Option.isNone_iff_eq_none] at hkeep
  dsimp only at hgrant
  cases hscope : parse N g.scopeJson with
  | none =>
    rw [hscope] at hgrant
    cases hgrant
  | some scope =>
    rw [hscope] at hgrant
    cases hgrant
    exact ⟨g, ⟨hg, hkeep.2⟩, hkeep.1, rfl, hscope⟩

/-- **No container of a service comes up with powers that the operator did not grant.** Take any
history of requests, revocations, runs and restarts from a store without grants, and a run at its
end that read the grants at some moment of it. Each call of the run that creates or starts
`wanfw_<id>` is for a plan that was accepted against grants of the plugin bound to the service, and
each of them was written by a trust request of the operator for a manifest that declares it, with no
untrust request for the plugin between that and the moment VALIDATE read it. -/
theorem brought_up_granted (hfresh : Ungranted start)
    (hvalidate : env.validateStore = storeOf N (start.run N S earlier).admin.tables) :
    ∃ new, (start.run N S (earlier ++ later ++ [.run env])).world.log =
      (start.run N S (earlier ++ later)).world.log ++ new ∧
      ∀ a ∈ new, ∀ serviceId, a.BringsUp (containerName serviceId) →
        ∃ plan, a.CreatesFrom env serviceId plan ∧ Licensed earlier env serviceId plan := by
  let s := start.run N S (earlier ++ later)
  obtain ⟨new, hnew, hall⟩ := log_runOnce (s.gated N env) s.world
  refine ⟨new, by rw [System.run_concat]; exact hnew, fun a ha serviceId hup => ?_⟩
  obtain ⟨plan, hcreates, hcleared⟩ := cleared_of_bringsUp (hall a ha) hup
  obtain ⟨ds, framework, pluginId, grants, result, hload, -, hplanned, hbound, hgrants, hresult, hok, -⟩ :=
    hcleared.settled
  refine ⟨plan, hcreates, ds, pluginId, grants, hload, ⟨hplanned.answer⟩, hbound, accepted_of_ok hresult hok, ?_⟩
  intro grant hmem
  have hstore : (s.gated N env).validateStore = storeOf N (start.run N S earlier).admin.tables :=
    hvalidate
  rw [hstore] at hgrants
  obtain ⟨g, hg, rfl, hcap, hscope⟩ := live_of_loadGrants hgrants hmem
  have hgranted := granted_of_live hfresh hg hscope
  rwa [hcap] at hgranted

end Runs

/-! ### A plugin that is trusted before a run -/

/-- The operator trusts a staged bundle, which is recorded. -/
def trustHistory : List (Happening JsString) :=
  [.request (.trust 0 (js "deploy-docker") (js "h1")),
    .request (.resume 0 [⟨js "deploy-docker", js "h1", some deployManifest1⟩] [])]

/-- A run with a service of this plugin that asks for no power. -/
def trustedEnv : Env :=
  { webEnv with
    deployPlan := fun _ _ _ => .ok { image := js "nginx:1.27" }
    validateStore := storeOf Numerals.exact (webStart.run Numerals.exact sampleScheme trustHistory).admin.tables }

/-- The run brings `web` up, within the grants of the manifest. -/
theorem brought_up_granted_web : ∃ plan, Licensed trustHistory trustedEnv (js "web") plan := by
  have hfresh : Ungranted webStart := ⟨fun g hg => absurd hg.1 List.not_mem_nil, fun _ => rfl⟩
  obtain ⟨new, hnew, hall⟩ :=
    @brought_up_granted _ Numerals.exact sampleScheme webStart trustHistory [] trustedEnv hfresh rfl
  have hbefore : (webStart.run Numerals.exact sampleScheme (trustHistory ++ [])).world.log.length = 0 := by
    decide +kernel
  have hcreates :
      ((webStart.run Numerals.exact sampleScheme (trustHistory ++ [] ++ [.run trustedEnv])).world.log.any
        (creates (containerName (js "web")))) = true := by decide +kernel
  rw [hnew, List.length_eq_zero_iff.mp hbefore, List.nil_append, List.any_eq_true] at hcreates
  obtain ⟨a, ha, hcreates⟩ := hcreates
  obtain ⟨plan, -, hlicensed⟩ := hall a ha _ (bringsUp_of_creates hcreates)
  exact ⟨plan, hlicensed⟩

end Wanfw.Orchestrator.Consent
