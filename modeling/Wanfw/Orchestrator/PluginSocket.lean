import Wanfw.Js.Act
import Wanfw.Store.History
import Mathlib.Data.List.Induction

/-!
# The plugin socket

`listenPluginSocket` with the two callbacks that `main.ts` gives it. Every connection that the
socket accepts becomes `pluginConnectionHolder.connection`. When a connection closes, the holder
is cleared, and the callback is not told which connection it was. So a connection that closes
after its successor has been accepted takes the successor with it (`forgotten`): the orchestrator
has no plugins although the pluginhost is connected.

`connection_kept_iff`: over a history of events the newest open connection is in the holder all
the time, just when every connection that closes is the only one open.
-/

namespace Wanfw.Orchestrator

open Wanfw.Js Wanfw.Store

/-- The socket and the holder. A connection's number says how many were accepted before it. -/
structure PluginSocket where
  accepted : ℕ
  /-- The open connections, the newest last. -/
  sockets : List ℕ
  /-- `pluginConnectionHolder.connection`. -/
  connection : Option ℕ
  deriving DecidableEq

namespace PluginSocket

/-! ### The source -/

/-- The socket when it starts to listen. -/
def listening : PluginSocket := ⟨0, [], none⟩

/-- The callback `registerMethods` of `main.ts`. -/
def registerMethods (s : PluginSocket) (connection : ℕ) : PluginSocket := { s with connection := some connection }

/-- The callback `onDisconnect` of `main.ts`. -/
def onDisconnect (s : PluginSocket) : PluginSocket := { s with connection := none }

/-- A connection comes in. -/
def accept (s : PluginSocket) : PluginSocket :=
  registerMethods { s with accepted := s.accepted + 1, sockets := s.sockets ++ [s.accepted] } s.accepted

/-- The event `close` of a connection. -/
def close (s : PluginSocket) (c : ℕ) : PluginSocket := onDisconnect { s with sockets := s.sockets.erase c }

/-- The check with which an invocation takes the connection. -/
def invokeConnection (s : PluginSocket) : Except JsError ℕ :=
  match s.connection with
  | none => .error (.error (js "pluginhost unreachable"))
  | some connection => .ok connection

/-- What can happen on the socket. -/
inductive Event where
  | connect
  | close (c : ℕ)

def step (s : PluginSocket) : Event → PluginSocket
  | .connect => s.accept
  | .close c => s.close c

/-- Only an open connection closes. -/
def Possible (s : PluginSocket) : Event → Prop
  | .connect => True
  | .close c => c ∈ s.sockets

/-- The socket after a history of events. -/
def run (events : List Event) : PluginSocket := events.foldl step listening

/-- Every event of the history can happen when it does. -/
def Occurs (events : List Event) : Prop := ∀ before e, before ++ [e] <+: events → (run before).Possible e

theorem run_concat (events : List Event) (e : Event) : run (events ++ [e]) = step (run events) e := by
  rw [run, List.foldl_append]
  rfl

theorem occurs_nil : Occurs [] := fun _ _ h => absurd (List.prefix_nil.mp h) (by simp)

/-- A history goes on with an event that can happen. -/
theorem Occurs.concat {events : List Event} {e : Event} (h : Occurs events) (he : (run events).Possible e) :
    Occurs (events ++ [e]) := History.forall_concat.mpr ⟨h, he⟩

/-! ### The newest connection -/

/-- While a connection is open, the holder has an open one, and none of the open ones is newer. -/
def Kept (s : PluginSocket) : Prop :=
  s.sockets ≠ [] → ∃ d ∈ s.sockets, s.connection = some d ∧ ∀ c ∈ s.sockets, c ≤ d

section Kept

variable {s : PluginSocket} {c : ℕ}

/-- The holder is empty only when no connection is open. -/
theorem Kept.eq_nil (h : s.Kept) (hnone : s.connection = none) : s.sockets = [] := by
  by_contra hne
  obtain ⟨d, -, hd, -⟩ := h hne
  rw [hnone] at hd
  cases hd

/-- An invocation is refused only when no connection is open. -/
theorem Kept.invokeConnection (h : s.Kept) (hc : c ∈ s.sockets) : ∃ d ∈ s.sockets, s.invokeConnection = .ok d := by
  obtain ⟨d, hmem, hd, -⟩ := h (List.ne_nil_of_mem hc)
  refine ⟨d, hmem, ?_⟩
  rw [PluginSocket.invokeConnection, hd]

/-- The open connections have been accepted. -/
def Numbered (s : PluginSocket) : Prop := ∀ c ∈ s.sockets, c < s.accepted

theorem Numbered.step (h : s.Numbered) (e : Event) : (s.step e).Numbered := by
  cases e with
  | connect =>
    intro c hc
    apply Nat.lt_succ_of_le
    rcases List.mem_append.mp hc with hc | hc
    · exact (h c hc).le
    · exact (List.mem_singleton.mp hc).le
  | close c => exact fun d hd => h d (List.mem_of_mem_erase hd)

theorem numbered_run (events : List Event) : (run events).Numbered := by
  induction events using List.reverseRecOn with
  | nil => exact fun c hc => absurd hc List.not_mem_nil
  | append_singleton events e ih =>
    rw [run_concat]
    exact ih.step e

/-- A connection that comes in is the newest. -/
theorem kept_accept (h : s.Numbered) : s.accept.Kept := by
  intro _
  refine ⟨s.accepted, List.mem_append_right _ (List.mem_singleton_self _), rfl, fun c hc => ?_⟩
  rcases List.mem_append.mp hc with hc | hc
  · exact (h c hc).le
  · exact (List.mem_singleton.mp hc).le

/-- The empty holder is right only if no connection is open any more. -/
theorem kept_close_iff (hc : c ∈ s.sockets) : (s.close c).Kept ↔ s.sockets = [c] := by
  constructor
  · intro h
    rcases List.erase_eq_nil_iff.mp (h.eq_nil rfl) with hnil | hone
    · rw [hnil] at hc
      exact absurd hc List.not_mem_nil
    · exact hone
  · intro h hne
    exact absurd (List.erase_eq_nil_iff.mpr (.inr h)) hne

end Kept

/-! ### Histories -/

/-- **When the connection is kept**: after every event of a history, just when a connection only closes
while no other is open. -/
theorem connection_kept_iff (events : List Event) (h : Occurs events) :
    (∀ before, before <+: events → (run before).Kept) ↔
      ∀ before c, before ++ [.close c] <+: events → (run before).sockets = [c] := by
  constructor
  · intro hkept before c hclose
    have hafter := hkept _ hclose
    rw [run_concat] at hafter
    exact (kept_close_iff (h before (.close c) hclose)).mp hafter
  · intro halone before hbefore
    cases before using List.reverseRecOn with
    | nil => exact fun hne => absurd rfl hne
    | append_singleton before e =>
      rw [run_concat]
      cases e with
      | connect => exact kept_accept (numbered_run before)
      | close c => exact (kept_close_iff (h before (.close c) hbefore)).mpr (halone before c hbefore)

/-- The pluginhost dials in again before its first connection is closed. -/
def overlapping : List Event := [.connect, .connect, .close 0]

theorem occurs_overlapping : Occurs overlapping :=
  ((occurs_nil.concat (e := .connect) trivial).concat (e := .connect) trivial).concat (e := .close 0)
    List.mem_cons_self

/-- The second connection is open, and forgotten. -/
theorem forgotten : ¬ ∀ before, before <+: overlapping → (run before).Kept := by
  intro h
  have hnil := (h overlapping (List.prefix_refl _)).eq_nil rfl
  exact absurd hnil (by decide)

/-- The pluginhost dials in again after its first connection is closed. -/
theorem kept_reconnected : (run [.connect, .close 0, .connect]).Kept := by
  have hconnect : Occurs [.connect] := occurs_nil.concat trivial
  have hclose : Occurs [.connect, .close 0] := hconnect.concat (e := .close 0) List.mem_cons_self
  have hoccurs : Occurs [.connect, .close 0, .connect] := hclose.concat (e := .connect) trivial
  refine (connection_kept_iff _ hoccurs).mpr (fun before c hbefore => ?_) _ (List.prefix_refl _)
  obtain ⟨rfl, rfl⟩ : before = [.connect] ∧ c = 0 := by
    rcases before with _ | ⟨a, _ | ⟨b, _ | ⟨d, before⟩⟩⟩ <;> simp_all
  rfl

end PluginSocket

end Wanfw.Orchestrator
