import Wanfw.Orchestrator.Resolve
import Wanfw.Pluginhost.Supervisor

/-!
# Methods that are not registered

The dispatcher of `host-api/dispatcher.ts` looks the method of a `host.call` up in an object
literal, and with it in `Object.prototype`: a method that is named like a member of it is found
there and called as a handler would be.

`unknown_method_iff`: a method that is not registered is denied just when it has no such name.
-/

namespace Wanfw.Pluginhost

open Wanfw.Js Wanfw.Orchestrator

variable {ρ : Type} {deps : HostDeps ρ} {s : HostState ρ} {params : Value} {method : JsString}

/-- The dispatcher throws a `CapabilityError`, and nothing has changed. -/
def Denied (deps : HostDeps ρ) (s : HostState ρ) (params : Value) : Prop :=
  ∃ text, dispatch deps params s = (.error (.error text), s)

/-- Where one field of the parameters can be read, so can the others. -/
theorem destructure_ok {k k' : JsString} {v : Value} (h : params.destructure (js "params") k = .ok v) :
    ∃ v', params.destructure (js "params") k' = .ok v' := by
  cases params with
  | none => cases h
  | some x =>
    cases x with
    | null => cases h
    | _ => exact ⟨_, rfl⟩

/-- A call with a method that is a text comes to the table of the handlers. -/
theorem dispatch_method (deps : HostDeps ρ) (h : params.destructure (js "params") (js "method") = .ok (some (.str method))) :
    ∃ pluginId args, dispatch deps params = match lookupHandler deps method with
      | none => deny [(js "unknown host API method: ", some (.str method))] []
      | some handler => handler pluginId args := by
  obtain ⟨pluginId, hpluginId⟩ : ∃ v, params.destructure (js "params") (js "pluginId") = .ok v := destructure_ok h
  obtain ⟨args, hargs⟩ : ∃ v, params.destructure (js "params") (js "args") = .ok v := destructure_ok h
  refine ⟨pluginId, args, ?_⟩
  rw [dispatch, hpluginId, h, hargs]
  rfl

theorem inheritedHandler_eq_none_iff : (inheritedHandler method : Option (Handler ρ)) = none ↔ method ∉ prototypeMembers := by
  simp only [inheritedHandler]
  constructor
  · intro h hmem
    have hcases : ∀ name ∈ prototypeMembers, name = js "constructor" ∨ name = js "toString" ∨ name = js "isPrototypeOf" ∨
        name = js "__proto__" ∨ name ∈ throwingMembers := by decide
    rcases hcases method hmem with heq | heq | heq | heq | hthrowing
    · rw [if_pos heq] at h
      cases h
    · subst heq
      cases h
    · subst heq
      cases h
    · subst heq
      cases h
    · split_ifs at h
  · intro hnot
    have hne : ∀ name ∈ prototypeMembers, method ≠ name := fun name hname heq => hnot (heq ▸ hname)
    have hsub : ∀ name ∈ throwingMembers, name ∈ prototypeMembers := by decide
    rw [if_neg (hne _ (by decide)), if_neg (hne _ (by decide)), if_neg (hne _ (by decide)), if_neg (hne _ (by decide)),
      if_neg fun hmem => hnot (hsub _ hmem)]

/-- What is found in `Object.prototype` returns, or throws an error that is no `CapabilityError`. -/
theorem inherited_not_denied {handler : Handler ρ} (h : inheritedHandler method = some handler) (pluginId args : Value)
    (text : JsString) : (handler pluginId args s).1 ≠ .error (.error text) := by
  intro heq
  simp only [inheritedHandler] at h
  split at h
  · cases h
    cases heq
  · split at h
    · cases h
      cases heq
    · split at h
      · cases h
        dsimp only at heq
        split at heq <;> cases heq
      · split at h
        · cases h
          cases heq
        · split at h
          · cases h
            cases heq
          · cases h

/-- **Which unknown methods are denied**: for every plugin id, arguments and state, those that are not named like a member of
`Object.prototype`. -/
theorem unknown_method_iff (deps : HostDeps ρ) (s : HostState ρ)
    (hmethod : params.destructure (js "params") (js "method") = .ok (some (.str method)))
    (hunknown : method ∉ Obj.keys (handlers deps)) : Denied deps s params ↔ method ∉ prototypeMembers := by
  obtain ⟨pluginId, args, hdispatch⟩ := dispatch_method deps hmethod
  have hown : Obj.get (handlers deps) method = none := Obj.get_eq_none hunknown
  rw [← inheritedHandler_eq_none_iff (ρ := ρ)]
  rw [lookupHandler, hown, Option.none_or] at hdispatch
  unfold Denied
  rw [hdispatch]
  cases hinherited : (inheritedHandler method : Option (Handler ρ)) with
  | none => exact iff_of_true ⟨js "unknown host API method: " ++ method ++ [] ++ [], rfl⟩ rfl
  | some handler =>
    refine iff_of_false ?_ (Option.some_ne_none handler)
    rintro ⟨text, heq⟩
    exact inherited_not_denied hinherited pluginId args text (congrArg Prod.fst heq)

/-- A misspelt method. -/
theorem unknown_method_secrets_list : Denied secretsHost issuerState
    (some (.obj [(js "pluginId", .str (js "echo")), (js "method", .str (js "secrets.list")), (js "args", .obj [])])) := by
  have hunknown : js "secrets.list" ∉ Obj.keys (handlers secretsHost) := by decide
  exact (unknown_method_iff secretsHost issuerState rfl hunknown).mpr (by decide)

/-- `constructor` is not registered, and the call returns the id of the plugin. -/
theorem constructor_not_denied : js "constructor" ∉ Obj.keys (handlers secretsHost) ∧ ¬ Denied secretsHost issuerState
    (some (.obj [(js "pluginId", .str (js "echo")), (js "method", .str (js "constructor")), (js "args", .obj [])])) := by
  refine ⟨by decide, ?_⟩
  rintro ⟨text, heq⟩
  have hreturns : (dispatch secretsHost (some (.obj [(js "pluginId", .str (js "echo")), (js "method", .str (js "constructor")),
      (js "args", .obj [])])) issuerState).1 = .ok (.str (js "echo")) := rfl
  rw [heq] at hreturns
  cases hreturns

end Wanfw.Pluginhost
