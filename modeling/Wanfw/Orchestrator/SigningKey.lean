import Wanfw.Js.JsonParse

/-!
# The signing key

`signing-key.ts`: one Ed25519 key signs trust records, grants, approvals and the
checkpoints of the audit log. The signature scheme is a parameter: a signature made
with a key verifies under that key. What is signed of a row is a text made of its
columns; two columns hold JSON and are parsed first.
-/

namespace Wanfw.Orchestrator

open Wanfw.Js

/-- Signing with a key and verifying under it. A signature that is read from a file can be any value;
one that is no signature does not verify. -/
structure SignatureScheme (κ : Type) where
  sign : κ → JsString → JsString
  verify : κ → JsString → Json → Bool
  verify_sign : ∀ k m, verify k m (.str (sign k m)) = true

/-- A scheme to run examples with: the key stands before the text. -/
def sampleScheme : SignatureScheme JsString where
  sign k m := k ++ m
  verify k m
    | .str sig => sig == k ++ m
    | _ => false
  verify_sign k m := by simp

section Payloads

variable (N : Numerals)

/-- `canonicalTrustRecordPayload`, `none` where `JSON.parse` throws. -/
def canonicalTrustRecordPayload (pluginId version sha256 grantedCapsJson : JsString) : Option JsString :=
  (parse N grantedCapsJson).map fun grantedCaps =>
    stringify (.obj [(js "pluginId", .str pluginId), (js "version", .str version), (js "sha256", .str sha256),
      (js "grantedCaps", grantedCaps)])

/-- `canonicalGrantPayload`. -/
def canonicalGrantPayload (pluginId cap scopeJson : JsString) : Option JsString :=
  (parse N scopeJson).map fun scope =>
    stringify (.obj [(js "pluginId", .str pluginId), (js "cap", .str cap), (js "scope", scope)])

/-- `canonicalApprovalPayload`. -/
def canonicalApprovalPayload (projectionHash serviceId humanRendering : JsString) : JsString :=
  stringify (.obj [(js "projectionHash", .str projectionHash), (js "serviceId", .str serviceId),
    (js "humanRendering", .str humanRendering)])

end Payloads

end Wanfw.Orchestrator
