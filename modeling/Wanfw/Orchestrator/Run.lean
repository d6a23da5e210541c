import Wanfw.Orchestrator.Pipeline

/-!
# A run in two parts

Six stages settle what is to be done, and none of them calls Docker; EXECUTE and
OBSERVE do it. `runOnce_parts`: whatever a run changes on the daemon, it changes in
its last two stages, which find the daemon as the run found it, and the documents,
plans and gate that the six have settled.
-/

namespace Wanfw.Orchestrator

open Wanfw.Js

/-! ### Actions that leave the daemon alone -/

/-- The daemon, the log of calls and the documents of the run are the same. -/
structure Untouched (w w' : World) : Prop where
  docker : w'.docker = w.docker
  log : w'.log = w.log
  desiredState : w'.ctx.desiredState = w.ctx.desiredState

theorem Untouched.refl (w : World) : Untouched w w := ⟨rfl, rfl, rfl⟩

theorem Untouched.trans {w w' w'' : World} (h : Untouched w w') (h' : Untouched w' w'') : Untouched w w'' :=
  ⟨h'.docker.trans h.docker, h'.log.trans h.log, h'.desiredState.trans h.desiredState⟩

/-- An action that only takes notes, whether it throws or not. -/
def Deskwork {α : Type} (m : M α) : Prop := ∀ w, Untouched w (m w).2

section Deskwork

variable {α β : Type} {m : M α}

theorem Deskwork.pure (a : α) : Deskwork (pure a : M α) := fun w => .refl w

theorem Deskwork.get : Deskwork (Act.get : M World) := fun w => .refl w

theorem Deskwork.ofExcept (x : Except JsError α) : Deskwork (Act.ofExcept x : M α) := fun w => .refl w

theorem Deskwork.setCtx {f : Ctx → Ctx} (h : ∀ ctx, (f ctx).desiredState = ctx.desiredState) : Deskwork (setCtx f) :=
  fun w => ⟨rfl, rfl, h w.ctx⟩

theorem Deskwork.bind {f : α → M β} (hm : Deskwork m) (hf : ∀ a, Deskwork (f a)) : Deskwork (m >>= f) := by
  intro w
  have h := hm w
  rw [Act.bind_apply]
  revert h
  rcases m w with ⟨r, w'⟩
  intro h
  cases r with
  | error e => exact h
  | ok a => exact h.trans (hf a w')

variable {env : Env}

theorem deskwork_resolve : Deskwork (resolveStage env) := by
  refine Deskwork.get.bind fun w => ?_
  split
  · exact Deskwork.pure _
  · refine (Deskwork.ofExcept _).bind fun r => ?_
    split <;> exact Deskwork.pure _

theorem deskwork_plan : Deskwork (planStage env) := by
  refine Deskwork.get.bind fun w => ?_
  split
  · exact Deskwork.pure _
  · split
    · exact Deskwork.pure _
    · refine (Deskwork.ofExcept _).bind fun r => ?_
      split
      · exact Deskwork.pure _
      · refine (Deskwork.setCtx ?_).bind fun _ => Deskwork.pure _
        exact fun ctx => rfl

/-- How RENEWAL ends: the certificate's issuer is asked if one is bound and the renewal is due. -/
def renewalAttempt (certIssuer : Option JsString) (due : Bool) (after : JsString → RenewalState) : M StageResult :=
  match certIssuer with
  | none => return none
  | some id =>
    if due then do
      Act.modify fun w => { w with renewal := after id }
      return none
    else return none

theorem deskwork_renewal : Deskwork (renewalStage env) := by
  refine Deskwork.get.bind fun w => ?_
  have attempt : ∀ (certIssuer : Option JsString) (due : Bool) (after : JsString → RenewalState),
      Deskwork (renewalAttempt certIssuer due after) := by
    intro certIssuer due after
    unfold renewalAttempt
    split
    · exact Deskwork.pure _
    · split
      · exact Deskwork.bind (fun _ => ⟨rfl, rfl, rfl⟩) fun _ => Deskwork.pure _
      · exact Deskwork.pure _
  split
  · exact Deskwork.pure _
  · dsimp only
    split
    · refine (Deskwork.setCtx ?_).bind fun _ => attempt _ _ _
      exact fun ctx => rfl
    · exact attempt _ _ _

theorem deskwork_validate : Deskwork (validateStage env) := by
  refine Deskwork.get.bind fun w => ?_
  split
  · refine (Deskwork.ofExcept _).bind fun r => ?_
    split
    · exact Deskwork.pure _
    · refine (Deskwork.setCtx ?_).bind fun _ => Deskwork.pure _
      exact fun ctx => rfl
  · exact Deskwork.pure _

theorem deskwork_gate : Deskwork (gateStage env) := by
  refine Deskwork.get.bind fun w => ?_
  split
  · exact Deskwork.bind (fun _ => ⟨rfl, rfl, rfl⟩) fun _ => Deskwork.pure _
  · exact Deskwork.pure _

end Deskwork

/-! ### LOAD -/

/-- The documents were read without an error, and the run has them. -/
def Read (env : Env) (w : World) : Prop :=
  ∃ ds, env.load = .ok ds ∧ ds.errors = [] ∧ w.ctx.desiredState = some ds

section Load

variable {env : Env} {w : World}

/-- LOAD, however it ends. -/
theorem loadStage_spec : Act.Triple (· = w) (loadStage env)
    (fun r w' => w'.docker = w.docker ∧ w'.log = w.log ∧ (r = none → Read env w')) fun _ _ => False := by
  let Noted := fun (ds : DesiredState) (w' : World) => env.load = .ok ds ∧ w'.docker = w.docker ∧ w'.log = w.log ∧
    w'.ctx.desiredState = some ds
  unfold loadStage
  refine Act.Triple.tryCatch (F := fun _ w' => w' = w) ?_ fun e => Act.Triple.pure ?_
  · refine Act.Triple.bind (Q := fun ds w' => env.load = .ok ds ∧ w' = w)
      (Act.Triple.ofExcept (fun ds hds w' h => ⟨hds, h⟩) fun e _ w' h => h) fun ds => ?_
    refine Act.Triple.bind (Q := fun _ => Noted ds)
      (Act.Triple.modify fun w' h => ⟨h.1, by rw [h.2], by rw [h.2], rfl⟩) fun _ => ?_
    refine Act.Triple.bind (Q := fun _ => Noted ds) (Act.Triple.modify fun w' h => h) fun _ => ?_
    have finish : Act.Triple (Noted ds) (loadReport ds.errors)
        (fun r w' => w'.docker = w.docker ∧ w'.log = w.log ∧ (r = none → Read env w')) (fun _ w' => w' = w) := by
      unfold loadReport
      split
      · rename_i herrors
        exact Act.Triple.pure fun w' h => ⟨h.2.1, h.2.2.1, fun _ => ⟨ds, h.1, herrors, h.2.2.2⟩⟩
      · exact Act.Triple.pure fun w' h => ⟨h.2.1, h.2.2.1, by simp⟩
    dsimp only
    split
    · split
      · exact Act.Triple.bind (Act.Triple.modify fun w' h => h) fun _ => finish
      · exact finish
    · exact finish
  · rintro w' rfl
    exact ⟨rfl, rfl, by simp⟩

end Load

/-! ### The stages before EXECUTE -/

/-- The stages that call no Docker. -/
def early : List Stage := [.load, .resolve, .plan, .renewal, .validate, .gate]

section Early

variable {env : Env} {w : World}

/-- `runStages` for two lists in turn. -/
theorem runStages_append (before after : List Stage) :
    runStages env (before ++ after) = (do
      match ← runStages env before with
      | some e => return some e
      | none => runStages env after) := by
  induction before with
  | nil => rfl
  | cons stage before ih =>
    funext w
    rw [List.cons_append, runStages, runStages, ih]
    simp only [Act.bind_apply]
    rcases Act.tryCatch (runStage env stage) _ w with ⟨r, w'⟩
    rcases r with e | e | _ <;> rfl

/-- What a list of stages leaves, whatever it answers. -/
theorem runStages_ok (list : List Stage) (w : World) : ∃ r w', runStages env list w = (.ok r, w') := by
  induction list generalizing w with
  | nil => exact ⟨none, w, rfl⟩
  | cons stage list ih =>
    rw [runStages, Act.bind_apply]
    unfold Act.tryCatch
    rcases runStage env stage w with ⟨r, w'⟩
    rcases r with e | e | _
    · exact ⟨_, w', rfl⟩
    · exact ih w'
    · exact ⟨_, w', rfl⟩

/-- One more stage before EXECUTE. -/
theorem early_cons {P Q : Ctx → Prop} {stage : Stage} {rest : List Stage} {R : StageResult → World → Prop}
    (hleaves : Leaves w.log P (runStage env stage) Q) (hdesk : Deskwork (runStage env stage))
    (hstop : ∀ e w', Untouched w w' → R (some e) w')
    (hrest : Act.Triple (fun w' => Untouched w w' ∧ Q w'.ctx) (runStages env rest) R fun _ _ => False) :
    Act.Triple (fun w' => Untouched w w' ∧ P w'.ctx) (runStages env (stage :: rest)) R fun _ _ => False := by
  refine Act.Triple.bind (Q := fun r w' => Untouched w w' ∧ (r = none → Q w'.ctx)) ?_ fun r => ?_
  · refine Act.Triple.tryCatch (F := fun _ => Untouched w) ?_ fun e => Act.Triple.pure fun w' h => ⟨h, by simp⟩
    rintro w' ⟨hw, hP⟩
    have hl := hleaves w' ⟨hw.log, hP⟩
    have hd := hdesk w'
    revert hl hd
    rcases runStage env stage w' with ⟨r, w''⟩
    intro hl hd
    cases r with
    | error e => exact hw.trans hd
    | ok r => exact ⟨hw.trans hd, hl.2⟩
  · cases r with
    | some e => exact Act.Triple.pure fun w' h => hstop e w' h.1
    | none => exact hrest.conseq (fun w' h => ⟨h.1, h.2 rfl⟩) (fun _ _ h => h) fun _ _ h => h

/-- The stages after LOAD, from the documents that LOAD has read. -/
theorem runStages_afterLoad (hread : Read env w) :
    Act.Triple (· = w) (runStages env [.resolve, .plan, .renewal, .validate, .gate])
      (fun r w' => Untouched w w' ∧ (r = none → Gated env w'.ctx)) fun _ _ => False := by
  have hloaded : Loaded env w.ctx := by
    obtain ⟨ds, hload, -, hds⟩ := hread
    exact ⟨ds, hload, hds⟩
  refine Act.Triple.conseq (P := fun w' => Untouched w w' ∧ Loaded env w'.ctx) ?_
    (fun w' h => ⟨h ▸ .refl w, h ▸ hloaded⟩) (fun _ _ h => h) fun _ _ h => h
  refine early_cons leaves_resolve deskwork_resolve (fun _ _ h => ⟨h, by simp⟩) ?_
  refine early_cons leaves_plan deskwork_plan (fun _ _ h => ⟨h, by simp⟩) ?_
  refine early_cons leaves_renewal deskwork_renewal (fun _ _ h => ⟨h, by simp⟩) ?_
  refine early_cons leaves_validate deskwork_validate (fun _ _ h => ⟨h, by simp⟩) ?_
  refine early_cons leaves_gate deskwork_gate (fun _ _ h => ⟨h, by simp⟩) ?_
  exact Act.Triple.pure fun w' h => ⟨h.1, fun _ => h.2⟩

/-- What the six stages decide. -/
structure Decided (env : Env) (w : World) : Prop where
  read : Read env w
  gated : Gated env w.ctx

/-- What the six stages leave, however they end. -/
theorem runStages_early : Act.Triple (· = w) (runStages env early)
    (fun r w' => w'.docker = w.docker ∧ w'.log = w.log ∧ (r = none → Decided env w')) fun _ _ => False := by
  refine Act.Triple.bind (Q := fun r w' => w'.docker = w.docker ∧ w'.log = w.log ∧ (r = none → Read env w')) ?_ fun r => ?_
  · exact Act.Triple.tryCatch (F := fun _ _ => False) loadStage_spec fun e => Act.Triple.pure fun _ h => h.elim
  · cases r with
    | some e => exact Act.Triple.pure fun w' h => ⟨h.1, h.2.1, by simp⟩
    | none =>
      refine Act.Triple.ofEach fun w₁ h₁ => (runStages_afterLoad (h₁.2.2 rfl)).conseq (fun _ h => h) ?_ fun _ _ h => h
      rintro r w' ⟨hw, hgated⟩
      refine ⟨hw.docker.trans h₁.1, hw.log.trans h₁.2.1, fun hr => ⟨?_, hgated hr⟩⟩
      obtain ⟨ds, hload, herrors, hds⟩ := h₁.2.2 rfl
      exact ⟨ds, hload, herrors, hw.desiredState.trans hds⟩

end Early

/-! ### The two halves of a run -/

section Run

variable {env : Env} {w w' : World}

/-- The stages of a run: they end with an error before EXECUTE, or go on from what was decided. -/
def InTwoParts (env : Env) (w : World) (r : StageResult) (w' : World) : Prop :=
  ∃ w₁, w₁.docker = w.docker ∧ w₁.log = w.log ∧
    (w' = w₁ ∧ r ≠ none ∨ Decided env w₁ ∧ runStages env [.execute, .observe] w₁ = (.ok r, w'))

theorem runStages_parts : Act.Triple (· = w) (runStages env stages) (InTwoParts env w) fun _ _ => False := by
  rw [show stages = early ++ [.execute, .observe] from rfl, runStages_append]
  refine Act.Triple.bind runStages_early fun r => ?_
  cases r with
  | some e => exact Act.Triple.pure fun w' h => ⟨w', h.1, h.2.1, .inl ⟨rfl, by simp⟩⟩
  | none =>
    rintro w₁ ⟨hdocker, hlog, hdecided⟩
    obtain ⟨r, w', h⟩ : ∃ r w', runStages env [.execute, .observe] w₁ = (.ok r, w') := runStages_ok _ w₁
    dsimp only
    rw [h]
    exact ⟨w₁, hdocker, hlog, .inr ⟨hdecided rfl, h⟩⟩

/-- **Where a run changes the daemon.** Either the run ends before EXECUTE, with an error and the daemon
as it was, or its last two stages run from a state with the same daemon. -/
theorem runOnce_parts (env : Env) (w : World) : ∃ o r w', runOnce env w = (.ok o, w') ∧ InTwoParts env w r w' ∧
    (o.phase = .error ↔ r ≠ none) := by
  have key : Act.Triple (· = w) (runOnce env)
      (fun o w' => ∃ r, InTwoParts env w r w' ∧ (o.phase = .error ↔ r ≠ none)) fun _ _ => False := by
    refine Act.Triple.bind (Q := fun _ w' => w'.docker = w.docker ∧ w'.log = w.log)
      (Act.Triple.modify fun w' h => ⟨h ▸ rfl, h ▸ rfl⟩) fun _ => ?_
    refine Act.Triple.bind (Q := InTwoParts env w) (Act.Triple.ofEach fun w₀ h₀ => ?_) fun r => ?_
    · refine runStages_parts.conseq (fun _ h => h) (fun r w' h => ?_) fun _ _ h => h
      obtain ⟨w₁, hdocker, hlog, h⟩ := h
      exact ⟨w₁, hdocker.trans h₀.1, hlog.trans h₀.2, h⟩
    · refine Act.Triple.getBind fun w' hw' => ?_
      split <;> rintro w'' rfl <;> exact ⟨_, hw', by simp⟩
  have h := key w rfl
  revert h
  rcases runOnce env w with ⟨o | o, w'⟩
  · exact False.elim
  · rintro ⟨r, h⟩
    exact ⟨o, r, w', rfl, h⟩

end Run

/-! ### EXECUTE and OBSERVE in a run -/

theorem ForGraph.stage {env : Env} {graph : PlanGraph} {gateSnapshot : Option (Obj GatedService)} {a : Attempt}
    (h : ForGraph env graph gateSnapshot a) : a.stage = .execute := by
  rcases h with ⟨_, _, _, _, h⟩ | ⟨_, _, _, _, h⟩ | h
  · exact h.stage
  · exact h.stage
  · exact h.1

section LastStages

variable {env : Env} {w w' : World}

/-- The stage does what `executeGraph` does for the documents and the graph of the run, and nothing without them. -/
theorem executeStage_spec {Q : StageResult → World → Prop} {E : JsError → World → Prop} (hidle : Q none w)
    (hgraph : ∀ ds graph, w.ctx.desiredState = some ds → w.ctx.planGraph = some graph → ds.framework.isSome →
      Act.Triple (· = w) (executeGraph env ds graph w.ctx.gateSnapshot) Q E)
    (hdone : ∀ w', Q none w' → Q none { w' with ctx := { w'.ctx with executedPlanId := some env.planId } }) :
    Act.Triple (· = w) (executeStage env) Q E := by
  refine Act.Triple.getBind ?_
  rintro _ rfl
  split
  · rename_i ds graph hds hg
    split
    · exact Act.Triple.pure fun w' h => h ▸ hidle
    · rename_i framework hfw
      refine Act.Triple.bind (hgraph ds graph hds hg (by simp [hfw])) fun r => ?_
      cases r with
      | some e => exact Act.Triple.pure fun w' h => h
      | none => exact Act.Triple.bind (Q := fun _ => Q none) (Act.Triple.modify hdone) fun _ => Act.Triple.pure fun w' h => h
  · exact Act.Triple.pure fun w' h => h ▸ hidle

/-- The last two stages: what EXECUTE leaves when it succeeds, OBSERVE goes on with. -/
theorem lastStages_spec {P Q : World → Prop} {R : StageResult → World → Prop}
    (hexecute : Act.Triple P (executeStage env) (fun r w' => match r with | some e => R (some e) w' | none => Q w')
      fun e w' => R (some ⟨js "execute", none, e.message⟩) w')
    (hobserve : Act.Triple Q (observeStage env) R fun e w' => R (some ⟨js "observe", none, e.message⟩) w') :
    Act.Triple P (runStages env [.execute, .observe]) R fun _ _ => False := by
  refine Act.Triple.bind (Q := fun r w' => match r with | some e => R (some e) w' | none => Q w') ?_ fun r => ?_
  · exact Act.Triple.tryCatch (F := fun e w' => R (some ⟨js "execute", none, e.message⟩) w') hexecute fun e =>
      Act.Triple.pure fun w' h => h
  cases r with
  | some e => exact Act.Triple.pure fun w' h => h
  | none =>
    refine Act.Triple.bind (Q := R) ?_ fun r => ?_
    · exact Act.Triple.tryCatch (F := fun e w' => R (some ⟨js "observe", none, e.message⟩) w') hobserve fun e =>
        Act.Triple.pure fun w' h => h
    · cases r <;> exact Act.Triple.pure fun w' h => h

end LastStages

end Wanfw.Orchestrator
