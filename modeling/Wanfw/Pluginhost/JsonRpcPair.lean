import Wanfw.Pluginhost.JsonRpc
import Wanfw.Protocol.Exchange

/-!
# Two connections

Two `JsonRpcConnection`s, each reading what the other writes. The bytes come in chunks of any
size, lines are handled while calls and notifications are made, handlers settle in any order,
and either side can close.

Every run is one of two exchanges, one for the calls of each side (`Pair.linked_of_steps`): the
bytes on their way are the texts of messages, and their requests and responses are those of the
exchanges. So what holds of an exchange holds of the connections (`Pair.calls_correlated`).
-/

namespace Wanfw.Pluginhost

open Wanfw.Js Wanfw.Store Wanfw.Protocol Relation

/-! ### Messages -/

/-- What the connections send each other. -/
inductive Message where
  | request (id method : JsString) (params : Value)
  | notification (method : JsString) (params : Value)
  | success (id : JsString) (value : Json)
  | failure (id : JsString) (code : ℕ) (message : JsString)

namespace Message

/-- A message, as it is sent. -/
def toObj : Message → Obj Json
  | .request id method params => requestMessage id method params
  | .notification method params => notificationMessage method params
  | .success id value => successMessage (.str id) (some value)
  | .failure id code message => errorMessage (.str id) code (some (.str message))

/-- The values in a message are values of the language. -/
def Proper : Message → Prop
  | .request _ _ params | .notification _ params => ∀ v ∈ params, v.Proper
  | .success _ value => value.Proper
  | .failure _ _ _ => True

/-- The line of a message, without its end. -/
def text (m : Message) : JsString := stringify (.obj m.toObj)

/-- The line of a message. -/
def line (m : Message) : JsString := m.text ++ js "\n"

theorem proper_object {members : List (JsString × Value)} (hnd : (members.map Prod.fst).Nodup)
    (hplain : ∀ k ∈ members.map Prod.fst, arrayIndex k = none) (h : ∀ e ∈ members, ∀ v ∈ e.2, v.Proper) :
    (Json.obj (Value.object members)).Proper := by
  have hkeys : (Obj.keys (Value.object members)).Sublist (members.map Prod.fst) := by
    induction members with
    | nil => exact .slnil
    | cons e members ih =>
      have hrest := ih (List.nodup_cons.mp hnd).2 (fun k hk => hplain k (List.mem_cons_of_mem _ hk))
        fun e' he' => h e' (List.mem_cons_of_mem _ he')
      rw [Value.object, List.filterMap_cons]
      split
      · exact hrest.cons _
      · rename_i heq
        obtain ⟨v, -, rfl⟩ := Option.map_eq_some_iff.mp heq
        exact hrest.cons_cons _
  refine Json.Proper.plain (hnd.sublist hkeys) (fun k hk => hplain k (hkeys.subset hk)) fun e he => ?_
  obtain ⟨e', he', hsome⟩ := List.mem_filterMap.mp he
  obtain ⟨v, hv, rfl⟩ := Option.map_eq_some_iff.mp hsome
  exact h e' he' v hv

theorem proper_toObj {m : Message} (h : m.Proper) : (Json.obj m.toObj).Proper := by
  cases m with
  | request id method params =>
    have hparams : ∀ v ∈ params, v.Proper := h
    apply proper_object (by simp; decide) (by simp; decide +kernel)
    simpa [Json.Proper.str] using hparams
  | notification method params =>
    have hparams : ∀ v ∈ params, v.Proper := h
    apply proper_object (by simp; decide) (by simp; decide +kernel)
    simpa [Json.Proper.str] using hparams
  | success id value =>
    have hvalue : value.Proper := h
    apply proper_object (by simp; decide) (by simp; decide +kernel)
    simpa [Json.Proper.str] using hvalue
  | failure id code message =>
    have herror : (Json.obj (Value.object [(js "code", some (.num (Decimal.ofParts true code 0))),
        (js "message", some (.str message))])).Proper := by
      apply proper_object (by simp; decide) (by simp; decide +kernel)
      simp [Json.Proper.str, Json.Proper.num]
    apply proper_object (by simp; decide) (by simp; decide +kernel)
    simpa [Json.Proper.str] using herror

theorem text_plain (m : Message) : (10 : UInt16) ∉ m.text ∧ trim m.text ≠ [] := by
  constructor
  · intro h
    exact absurd (noControl_stringify _ _ h) (by decide)
  · exact trim_stringify_ne_nil _

theorem parse_text {N : Numerals} {m : Message} (h : m.Proper) : parse N m.text = some (.obj m.toObj) :=
  parse_stringify (proper_toObj h)

theorem wellFormed_line (m : Message) : WellFormed m.line := (wellFormed_stringify _).append (wellFormed_js _)

end Message

/-! ### Calls as an exchange -/

/-- What a call asks for. -/
structure Question where
  method : JsString
  params : Value

/-- What it is answered. -/
inductive Reply where
  | value (v : Json)
  | error (message : JsString)

namespace Reply

/-- The result of a handler. -/
def result : Reply → HandlerResult
  | value v => .resolves (some v)
  | error message => .rejects (.error (some (.str message)))

/-- How the call is settled. -/
def outcome : Reply → CallOutcome
  | value v => .resolved (some v)
  | error message => .peerError message

/-- The message for the result of a handler. -/
def message (id : JsString) : Reply → Message
  | value v => .success id v
  | error message => .failure id 32000 message

/-- The value is one of the language. -/
def Proper : Reply → Prop
  | value v => v.Proper
  | error _ => True

end Reply

/-- The reply to a call for a method that was not found. -/
def notFound (q : Question) : Reply := .error (methodNotFound q.method)

/-- The request in a message. -/
def Message.asRequest : Message → Option (JsString × Question)
  | .request id method params => some (id, ⟨method, params⟩)
  | _ => none

/-- The response in a message. -/
def Message.asResponse : Message → Option (JsString × Reply)
  | .success id value => some (id, .value value)
  | .failure id _ message => some (id, .error message)
  | _ => none

/-- What an exchange is about, of a connection: its calls, and the requests that it took. -/
structure Account where
  calls : List OutgoingCall
  pending : List (JsString × ℕ)
  closed : Bool
  works : List Invocation
  refusals : List Refusal

namespace Connection

/-- The account of a connection. -/
def account (c : Connection) : Account :=
  ⟨c.calls, c.pending, c.closed, c.invocations.filter fun i => i.id.isSome, c.refusals⟩

end Connection

namespace Account

/-- Resolve or reject the promise of a call. -/
def settle (n : ℕ) (outcome : CallOutcome) (calls : List OutgoingCall) : List OutgoingCall :=
  calls.modify n fun call => { call with settlements := call.settlements ++ [outcome] }

/-- What a connection can do: the messages that it takes, and those that it writes. -/
inductive Does (a : Account) : List Message → List Message → Account → Prop where
  | other (taken sent : List Message) (htaken : ∀ m ∈ taken, m.asRequest = none ∧ m.asResponse = none)
      (hsent : ∀ m ∈ sent, m.asRequest = none ∧ m.asResponse = none) : Does a taken sent a
  | call (id method : JsString) (params : Value) (hopen : a.closed = false) (hfresh : ∀ call ∈ a.calls, call.id ≠ some id) :
    Does a [] [.request id method params] { a with
      calls := a.calls ++ [⟨some id, method, params, []⟩]
      pending := Table.upsertRows Prod.fst a.pending (id, a.calls.length) }
  | late (method : JsString) (params : Value) (hclosed : a.closed = true) :
    Does a [] [] { a with calls := a.calls ++ [⟨none, method, params, [.connectionClosed]⟩] }
  | start (id method : JsString) (params : Value) :
    Does a [.request id method params] [] { a with works := a.works ++ [⟨some (.str id), method, params, none⟩] }
  | refuse (id method : JsString) (params : Value) (methods : List JsString) (hmethods : method ∉ methods) :
    Does a [.request id method params] [.failure id 32601 (methodNotFound method)]
      { a with refusals := a.refusals ++ [⟨.str id, some (.str method), methods⟩] }
  | finish (before after : List Invocation) (id method : JsString) (params : Value) (reply : Reply)
      (h : a.works = before ++ ⟨some (.str id), method, params, none⟩ :: after) :
    Does a [] [reply.message id]
      { a with works := before ++ ⟨some (.str id), method, params, some reply.result⟩ :: after }
  | answer (m : Message) (id : JsString) (reply : Reply) (n : ℕ) (hm : m.asResponse = some (id, reply))
      (hpending : (id, n) ∈ a.pending) :
    Does a [m] [] { a with
      pending := a.pending.filter fun entry => entry.1 ≠ id
      calls := settle n reply.outcome a.calls }
  | drop (m : Message) (id : JsString) (reply : Reply) (hm : m.asResponse = some (id, reply))
      (hpending : ∀ n, (id, n) ∉ a.pending) : Does a [m] [] a
  | close : Does a [] [] { a with
      closed := true
      calls := a.pending.foldl (fun calls entry => settle entry.2 .connectionClosed calls) a.calls
      pending := [] }

/-- What is closed stays closed. -/
theorem Does.closed {a a' : Account} {taken sent : List Message} (h : a.Does taken sent a') :
    a.closed = true → a'.closed = true := by
  cases h with
  | close => exact fun _ => rfl
  | _ => exact fun hclosed => hclosed

end Account

/-! ### What a connection does -/

/-- The bytes of messages. -/
def bytes (ms : List Message) : List UInt8 := ms.flatMap fun m => utf8 m.line

namespace Connection

/-- A connection takes messages, and writes messages. -/
structure Moves (c : Connection) (taken sent : List Message) (c' : Connection) : Prop where
  does : c.account.Does taken sent c'.account
  written : c'.written = c.written ++ bytes sent
  proper : ∀ m ∈ sent, m.Proper
  decoder : c'.decoder = c.decoder
  buffer : c'.buffer = c.buffer

/-- What can happen to a connection, but for what it reads: ids are new, values are values of the language, and handlers
resolve with one or reject with an error. -/
inductive Local (c : Connection) : Event → Prop where
  | registerMethod (name : JsString) : Local c (.registerMethod name)
  | call (id method : JsString) (params : Value) (hfresh : ∀ call ∈ c.calls, call.id ≠ some id)
      (hparams : ∀ v ∈ params, v.Proper) : Local c (.call id method params)
  | notify (method : JsString) (params : Value) (hparams : ∀ v ∈ params, v.Proper) : Local c (.notify method params)
  | settled (k : ℕ) (result : HandlerResult) (hresult : ∀ i, c.invocations[k]? = some i → i.id.isSome = true →
      ∃ reply : Reply, reply.Proper ∧ result = reply.result) : Local c (.settled k result)
  | close : Local c .close
  | streamError : Local c .streamError

section Moves

variable {c : Connection} {N : Numerals}

/-- Nothing is taken or written. -/
theorem Moves.silent {c' : Connection} (hdoes : c.account.Does [] [] c'.account) (hwritten : c'.written = c.written)
    (hdecoder : c'.decoder = c.decoder) (hbuffer : c'.buffer = c.buffer) : Moves c [] [] c' :=
  ⟨hdoes, by rw [hwritten, bytes, List.flatMap_nil, List.append_nil], fun _ h => absurd h List.not_mem_nil, hdecoder, hbuffer⟩

/-- One message is written, last. -/
theorem Moves.write {c' : Connection} {taken : List Message} {m : Message} (hproper : m.Proper)
    (hdoes : c.account.Does taken [m] c'.account) (hwritten : c'.written = c.written) (hdecoder : c'.decoder = c.decoder)
    (hbuffer : c'.buffer = c.buffer) : Moves c taken [m] (writeNdjson m.toObj c') := by
  refine ⟨hdoes, ?_, fun m' h => List.mem_singleton.mp h ▸ hproper, hdecoder, hbuffer⟩
  rw [writeNdjson, bytes, List.flatMap_singleton, hwritten]
  rfl

theorem findMethod_str (method : JsString) :
    c.findMethod (some (.str method)) = if method ∈ c.methods then some method else none := by
  have hpred : (fun m => Value.strictEq (some (.str method)) (.str m)) = fun m => decide (method = m) := by
    funext m
    rw [Value.strictEq, Option.any_some, Json.strictEq, beq_eq_decide]
  rw [findMethod, hpred]
  split
  · rename_i hmem
    have hsome : (c.methods.find? fun m => decide (method = m)).isSome :=
      List.find?_isSome.mpr ⟨method, hmem, by simp⟩
    obtain ⟨name, hname⟩ := Option.isSome_iff_exists.mp hsome
    have heq := List.find?_some hname
    rw [hname, of_decide_eq_true heq]
  · rename_i hmem
    refine List.find?_eq_none.mpr fun m hm => ?_
    rw [decide_eq_true_eq]
    rintro rfl
    exact hmem hm

theorem find?_pending_cases (id : JsString) : (∃ n, c.findPending (some (.str id)) = some (id, n) ∧ (id, n) ∈ c.pending) ∨
    c.findPending (some (.str id)) = none ∧ ∀ n, (id, n) ∉ c.pending := by
  rw [findPending]
  cases hfind : c.pending.find? fun entry => decide (entry.1 = id) with
  | none =>
    refine .inr ⟨rfl, fun n hmem => ?_⟩
    exact List.find?_eq_none.mp hfind (id, n) hmem (decide_eq_true rfl)
  | some entry =>
    obtain ⟨id', n⟩ := entry
    have hsome := List.find?_some hfind
    obtain rfl : id' = id := of_decide_eq_true hsome
    exact .inl ⟨n, rfl, List.mem_of_find?_eq_some hfind⟩

/-- A response settles the call that waits for it, if one does. -/
theorem moves_of_response {m : Message} {id : JsString} {reply : Reply} (hm : m.asResponse = some (id, reply))
    (hhandle : handleMessage (.obj m.toObj) = handleResponse (.obj m.toObj))
    (hid : (Json.obj m.toObj).prop (js "id") = some (.str id))
    (houtcome : responseOutcome (.obj m.toObj) = .ok reply.outcome) : Moves c [m] [] (onMessage (.obj m.toObj) c) := by
  have hwritten : ∀ l : List UInt8, l = l ++ bytes [] := fun l => (List.append_nil l).symm
  rw [onMessage, unawaited, hhandle, handleResponse, hid]
  rcases find?_pending_cases (c := c) id with ⟨n, hfind, hmem⟩ | ⟨hfind, hnone⟩
  · rw [hfind]
    dsimp only
    rw [houtcome]
    exact ⟨.answer m id reply n hm hmem, hwritten _, fun _ h => absurd h List.not_mem_nil, rfl, rfl⟩
  · rw [hfind]
    exact ⟨.drop m id reply hm hnone, hwritten _, fun _ h => absurd h List.not_mem_nil, rfl, rfl⟩

theorem moves_of_request (id method : JsString) (params : Value) :
    ∃ sent, Moves c [.request id method params] sent (onMessage (.obj (requestMessage id method params)) c) := by
  have hhandle : handleMessage (.obj (requestMessage id method params)) = handleRequest (.str id) (some (.str method)) params := by
    rw [handleMessage_obj]
    cases params <;> rfl
  rw [onMessage, unawaited, hhandle, handleRequest, findMethod_str]
  by_cases hmethod : method ∈ c.methods
  · rw [if_pos hmethod]
    refine ⟨[], ?_, (List.append_nil _).symm, fun _ h => absurd h List.not_mem_nil, rfl, rfl⟩
    have haccount : account { c with invocations := c.invocations ++ [⟨some (.str id), method, params, none⟩] } =
        { c.account with works := c.account.works ++ [⟨some (.str id), method, params, none⟩] } := by
      rw [account, List.filter_append]
      rfl
    dsimp only
    rw [haccount]
    exact .start id method params
  · rw [if_neg hmethod]
    exact ⟨_, Moves.write (m := .failure id 32601 (methodNotFound method)) trivial (.refuse id method params c.methods hmethod)
      rfl rfl rfl⟩

theorem moves_of_notification (method : JsString) (params : Value) :
    Moves c [.notification method params] [] (onMessage (.obj (notificationMessage method params)) c) := by
  have hhandle : handleMessage (.obj (notificationMessage method params)) =
      Act.modify (handleNotification (some (.str method)) params) := by
    rw [handleMessage_obj]
    cases params <;> rfl
  have hother : c.account.Does [.notification method params] [] c.account :=
    .other _ _ (fun m h => List.mem_singleton.mp h ▸ ⟨rfl, rfl⟩) fun _ h => absurd h List.not_mem_nil
  rw [onMessage, unawaited, hhandle, Act.modify, handleNotification]
  dsimp only
  cases c.findMethod (some (.str method)) with
  | none => exact ⟨hother, (List.append_nil _).symm, fun _ h => absurd h List.not_mem_nil, rfl, rfl⟩
  | some name =>
    refine ⟨?_, (List.append_nil _).symm, fun _ h => absurd h List.not_mem_nil, rfl, rfl⟩
    have haccount : account { c with invocations := c.invocations ++ [⟨none, name, params, none⟩] } = c.account := by
      rw [account, account, Account.mk.injEq]
      exact ⟨rfl, rfl, rfl, by simp, rfl⟩
    rw [haccount]
    exact hother

/-- **What is done with a message.** -/
theorem moves_of_message (m : Message) : ∃ sent, Moves c [m] sent (onMessage (.obj m.toObj) c) := by
  cases m with
  | request id method params => exact moves_of_request id method params
  | notification method params => exact ⟨[], moves_of_notification method params⟩
  | success id value =>
    have hresponse : (Message.success id value).asResponse = some (id, .value value) := rfl
    exact ⟨[], moves_of_response hresponse (handleMessage_obj _) rfl rfl⟩
  | failure id code message =>
    have hresponse : (Message.failure id code message).asResponse = some (id, .error message) := rfl
    exact ⟨[], moves_of_response hresponse (handleMessage_obj _) rfl rfl⟩

theorem calls_handleClose : (handleClose c).calls =
    c.pending.foldl (fun calls entry => Account.settle entry.2 .connectionClosed calls) c.calls := by
  have hloop : ∀ (entries : List (JsString × ℕ)) (c : Connection),
      (entries.foldl (fun c entry => settle entry.2 .connectionClosed c) c).calls =
        entries.foldl (fun calls entry => Account.settle entry.2 .connectionClosed calls) c.calls := by
    intro entries
    induction entries with
    | nil => exact fun _ => rfl
    | cons entry entries ih => exact fun c => ih (settle entry.2 .connectionClosed c)
  rw [handleClose_eq]
  exact hloop c.pending c

theorem moves_of_close : Moves c [] [] (handleClose c) := by
  refine Moves.silent ?_ (by rw [handleClose_eq]) (by rw [handleClose_eq]) (by rw [handleClose_eq])
  have haccount : (handleClose c).account = { c.account with
      closed := true
      calls := c.pending.foldl (fun calls entry => Account.settle entry.2 .connectionClosed calls) c.calls
      pending := [] } := by
    rw [← calls_handleClose, handleClose_eq]
    rfl
  rw [haccount]
  exact .close

/-- The result of a handler for a request is sent. -/
theorem moves_of_settled {k : ℕ} {result : HandlerResult} (hstr : ∀ i ∈ c.invocations, ∀ id ∈ i.id, ∃ s, id = .str s)
    (hresult : ∀ i, c.invocations[k]? = some i → i.id.isSome = true → ∃ reply : Reply, reply.Proper ∧ result = reply.result) :
    ∃ sent, Moves c [] sent (onSettled k result c) := by
  have hnothing : Moves c [] [] c :=
    Moves.silent (.other [] [] (fun _ h => absurd h List.not_mem_nil) fun _ h => absurd h List.not_mem_nil) rfl rfl rfl
  rw [onSettled]
  cases hinvocation : c.invocations[k]? with
  | none => exact ⟨[], hnothing⟩
  | some invocation =>
    obtain ⟨id, method, params, earlier⟩ := invocation
    dsimp only
    cases earlier with
    | some r => exact ⟨[], hnothing⟩
    | none =>
      obtain ⟨hk, hget⟩ := List.getElem?_eq_some_iff.mp hinvocation
      have hsplit : c.invocations = c.invocations.take k ++ ⟨id, method, params, none⟩ :: c.invocations.drop (k + 1) := by
        rw [← hget, List.getElem_cons_drop, List.take_append_drop]
      have hset : ∀ i, c.invocations.set k i = c.invocations.take k ++ i :: c.invocations.drop (k + 1) := fun i =>
        List.set_eq_take_append_cons_drop.trans (if_pos hk)
      have haccount : account { c with invocations := c.invocations.set k ⟨id, method, params, some result⟩ } = { c.account with
          works := (c.invocations.take k).filter (fun i => i.id.isSome) ++
            (⟨id, method, params, some result⟩ :: c.invocations.drop (k + 1)).filter fun i => i.id.isSome } := by
        rw [account, hset, List.filter_append]
        rfl
      have hworks : c.account.works = (c.invocations.take k).filter (fun i => i.id.isSome) ++
          (⟨id, method, params, none⟩ :: c.invocations.drop (k + 1)).filter fun i => i.id.isSome := by
        rw [← List.filter_append, ← hsplit]
        rfl
      cases id with
      | none =>
        have hsame : account { c with invocations := c.invocations.set k ⟨none, method, params, some result⟩ } = c.account := by
          rw [haccount, Account.mk.injEq]
          exact ⟨rfl, rfl, rfl, hworks.symm, rfl⟩
        have hquiet : Moves c [] [] { c with invocations := c.invocations.set k ⟨none, method, params, some result⟩ } := by
          refine Moves.silent ?_ rfl rfl rfl
          rw [hsame]
          exact hnothing.does
        refine ⟨[], ?_⟩
        cases result with
        | resolves value => exact hquiet
        | rejects reason => exact ⟨hquiet.does, hquiet.written, hquiet.proper, rfl, rfl⟩
      | some id =>
        obtain ⟨s, rfl⟩ := hstr _ (List.mem_of_getElem? hinvocation) id rfl
        obtain ⟨reply, hproper, rfl⟩ := hresult _ hinvocation rfl
        have hdoes := Account.Does.finish _ _ s method params reply hworks
        refine ⟨[reply.message s], ?_⟩
        cases reply with
        | value v => exact Moves.write (m := .success s v) hproper (haccount ▸ hdoes) rfl rfl rfl
        | error message => exact Moves.write (m := .failure s 32000 message) trivial (haccount ▸ hdoes) rfl rfl rfl

/-- **What is done without reading.** -/
theorem moves_of_local {e : Event} (h : Local c e) (hstr : ∀ i ∈ c.invocations, ∀ id ∈ i.id, ∃ s, id = .str s) :
    ∃ sent, Moves c [] sent (onEvent N e c) := by
  have hnothing : ∀ m : List Message, m = [] → ∀ m' ∈ m, m'.asRequest = none ∧ m'.asResponse = none := by
    rintro _ rfl _ h
    cases h
  cases h with
  | registerMethod name =>
    refine ⟨[], ?_⟩
    rw [onEvent, registerMethod]
    split <;> exact Moves.silent (.other [] [] (hnothing _ rfl) (hnothing _ rfl)) rfl rfl rfl
  | call id method params hfresh hparams =>
    rw [onEvent, call]
    split
    · rename_i hclosed
      exact ⟨[], Moves.silent (.late method params hclosed) rfl rfl rfl⟩
    · rename_i hopen
      exact ⟨_, Moves.write (m := .request id method params) hparams
        (.call id method params (Bool.eq_false_iff.mpr hopen) hfresh) rfl rfl rfl⟩
  | notify method params hparams =>
    refine ⟨_, Moves.write (m := .notification method params) hparams (.other _ _ (hnothing _ rfl) fun m h => ?_) rfl rfl rfl⟩
    exact List.mem_singleton.mp h ▸ ⟨rfl, rfl⟩
  | settled k result hresult => exact moves_of_settled hstr hresult
  | close => exact ⟨[], moves_of_close⟩
  | streamError => exact ⟨[], moves_of_close⟩

end Moves

end Connection

/-! ### The exchanges -/

/-- How a call of an exchange is settled, as a connection settles it. -/
def toOutcome : Settlement Reply → CallOutcome
  | .answered reply => reply.outcome
  | .closed => .connectionClosed

/-- A call of an exchange, as a connection keeps it. -/
def toCall (c : Call JsString Question Reply) : OutgoingCall :=
  ⟨c.id, c.request.method, c.request.params, c.settlements.map toOutcome⟩

/-- The work for a request, as a connection keeps it. -/
def toInvocation (w : Work JsString Question Reply) : Invocation :=
  ⟨some (.str w.id), w.request.method, w.request.params, w.result.map Reply.result⟩

/-- The calls of one connection and what the other did for them are those of an exchange, with the requests of the messages
on their way there and the responses of those on their way back. -/
structure Refines (caller callee : Account) (there back : List Message) (e : Exchange JsString Question Reply) : Prop where
  calls : caller.calls = e.calls.map toCall
  pending : caller.pending = e.pending
  closed : caller.closed = e.closed
  requests : there.filterMap Message.asRequest = e.requests
  works : callee.works = e.works.map toInvocation
  refused : callee.refusals.map (fun r => (r.id, r.method)) = e.refused.map fun r => (.str r.1, some (.str r.2.method))
  unregistered : ∀ r ∈ callee.refusals, ∀ method, r.method = some (.str method) → method ∉ r.methods
  responses : back.filterMap Message.asResponse = e.responses

section Refinement

variable {a b a' b' : Account} {there back : List Message} {e : Exchange JsString Question Reply}

theorem settle_map_toCall (n : ℕ) (s : Settlement Reply) (calls : List (Call JsString Question Reply)) :
    Account.settle n (toOutcome s) (calls.map toCall) = (settle n s calls).map toCall := by
  refine List.ext_getElem? fun m => ?_
  rw [Account.settle, List.getElem?_modify, List.getElem?_map, List.getElem?_map, Exchange.getElem?_settle]
  split
  · cases calls[m]? with
    | none => rfl
    | some c => simp [toCall]
  · simp

theorem settleAll_map_toCall (pending : List (JsString × ℕ)) (calls : List (Call JsString Question Reply)) :
    pending.foldl (fun calls entry => Account.settle entry.2 .connectionClosed calls) (calls.map toCall) =
      (settleAll pending calls).map toCall := by
  induction pending generalizing calls with
  | nil => rfl
  | cons entry pending ih =>
    have hone : Account.settle entry.2 .connectionClosed (calls.map toCall) = (settle entry.2 .closed calls).map toCall :=
      settle_map_toCall entry.2 .closed calls
    rw [List.foldl_cons, hone, ih]
    rfl

theorem asRequest_of_asResponse {m : Message} {r : JsString × Reply} (h : m.asResponse = some r) : m.asRequest = none := by
  cases m <;> first | rfl | cases h

theorem message_plain (reply : Reply) (id : JsString) :
    (reply.message id).asRequest = none ∧ (reply.message id).asResponse = some (id, reply) := by
  cases reply <;> exact ⟨rfl, rfl⟩

theorem filterMap_append_none {f : Message → Option α} (h : ∀ m ∈ back, f m = none) :
    (there ++ back).filterMap f = there.filterMap f := by
  rw [List.filterMap_append, List.filterMap_eq_nil_iff.mpr h, List.append_nil]

theorem append_filterMap_none {f : Message → Option α} (h : ∀ m ∈ there, f m = none) :
    (there ++ back).filterMap f = back.filterMap f := by
  rw [List.filterMap_append, List.filterMap_eq_nil_iff.mpr h, List.nil_append]

/-- **What the calling side does is a step of the exchange**, or none. -/
theorem Refines.caller {taken sent rest : List Message} (h : Refines a b there (taken ++ rest) e) (hinv : e.Inv notFound)
    (hdoes : a.Does taken sent a') :
    ∃ e', ReflTransGen (Exchange.Step notFound) e e' ∧ Refines a' b (there ++ sent) rest e' := by
  obtain ⟨hcalls, hpending, hclosed, hrequests, hworks, hrefused, hunregistered, hresponses⟩ := h
  have hfresh : ∀ id, (∀ call ∈ a.calls, call.id ≠ some id) → ∀ c ∈ e.calls, c.id ≠ some id := by
    intro id hnew c hc
    exact hnew (toCall c) (hcalls ▸ List.mem_map_of_mem hc)
  cases hdoes with
  | other _ _ htaken hsent =>
    refine ⟨e, .refl, hcalls, hpending, hclosed, ?_, hworks, hrefused, hunregistered, ?_⟩
    · rw [filterMap_append_none fun m hm => (hsent m hm).1, hrequests]
    · rw [← hresponses, append_filterMap_none fun m hm => (htaken m hm).2]
  | call id method params hopen hnew =>
    refine ⟨_, .single (.call id ⟨method, params⟩ (hclosed ▸ hopen) (hfresh id hnew)), ?_, ?_, hclosed, ?_, hworks, hrefused,
      hunregistered, hresponses⟩
    · simp [hcalls, toCall]
    · have hunused := (hinv.unused (hfresh id hnew)).2
      rw [Table.upsertRows, if_neg (hpending ▸ hunused), hpending, hcalls, List.length_map]
    · rw [List.filterMap_append, hrequests]
      rfl
  | late method params hlate =>
    refine ⟨_, .single (.late ⟨method, params⟩ (hclosed ▸ hlate)), ?_, hpending, hclosed, ?_, hworks, hrefused, hunregistered,
      hresponses⟩
    · simp [hcalls, toCall, toOutcome]
    · rw [List.append_nil, hrequests]
  | start id method params =>
    exact ⟨e, .refl, hcalls, hpending, hclosed, by rw [List.append_nil, hrequests], hworks, hrefused, hunregistered, hresponses⟩
  | refuse id method params methods hmethods =>
    refine ⟨e, .refl, hcalls, hpending, hclosed, ?_, hworks, hrefused, hunregistered, hresponses⟩
    rw [List.filterMap_append, hrequests]
    exact List.append_nil _
  | finish before after id method params reply hmine =>
    refine ⟨e, .refl, hcalls, hpending, hclosed, ?_, hworks, hrefused, hunregistered, hresponses⟩
    rw [filterMap_append_none fun m hm => List.mem_singleton.mp hm ▸ (message_plain reply id).1, hrequests]
  | answer m id reply n hm hmem =>
    rw [List.singleton_append, List.filterMap_cons_some hm] at hresponses
    refine ⟨_, .single (.answer id reply _ n hresponses.symm (hpending ▸ hmem)), ?_, ?_, hclosed, ?_, hworks, hrefused,
      hunregistered, rfl⟩
    · rw [hcalls]
      exact settle_map_toCall n (.answered reply) e.calls
    · rw [hpending]
    · rw [List.append_nil, hrequests]
  | drop m id reply hm hnone =>
    rw [List.singleton_append, List.filterMap_cons_some hm] at hresponses
    refine ⟨_, .single (.drop id reply _ hresponses.symm (hpending ▸ hnone)), hcalls, hpending, hclosed, ?_, hworks, hrefused,
      hunregistered, rfl⟩
    rw [List.append_nil, hrequests]
  | close =>
    refine ⟨_, .single .close, ?_, rfl, rfl, ?_, hworks, hrefused, hunregistered, hresponses⟩
    · rw [hcalls, hpending]
      exact settleAll_map_toCall e.pending e.calls
    · rw [List.append_nil, hrequests]

/-- **What the called side does is a step of the exchange**, or none. -/
theorem Refines.callee {taken sent rest : List Message} (h : Refines a b (taken ++ rest) back e) (hdoes : b.Does taken sent b') :
    ∃ e', ReflTransGen (Exchange.Step notFound) e e' ∧ Refines a b' rest (back ++ sent) e' := by
  obtain ⟨hcalls, hpending, hclosed, hrequests, hworks, hrefused, hunregistered, hresponses⟩ := h
  have hnone : back.filterMap Message.asResponse = (back ++ []).filterMap Message.asResponse := by rw [List.append_nil]
  cases hdoes with
  | other _ _ htaken hsent =>
    refine ⟨e, .refl, hcalls, hpending, hclosed, ?_, hworks, hrefused, hunregistered, ?_⟩
    · rw [← hrequests, append_filterMap_none fun m hm => (htaken m hm).1]
    · rw [filterMap_append_none fun m hm => (hsent m hm).2, hresponses]
  | call id method params hopen hnew =>
    refine ⟨e, .refl, hcalls, hpending, hclosed, hrequests, hworks, hrefused, hunregistered, ?_⟩
    rw [filterMap_append_none fun m hm => by rw [List.mem_singleton.mp hm]; rfl, hresponses]
  | late method params hlate =>
    exact ⟨e, .refl, hcalls, hpending, hclosed, hrequests, hworks, hrefused, hunregistered, hnone ▸ hresponses⟩
  | start id method params =>
    have hhead : e.requests = (id, ⟨method, params⟩) :: rest.filterMap Message.asRequest := hrequests.symm
    refine ⟨_, .single (.start id ⟨method, params⟩ _ hhead), hcalls, hpending, hclosed, rfl, ?_, hrefused, hunregistered,
      hnone ▸ hresponses⟩
    simp [hworks, toInvocation]
  | refuse id method params methods hmethods =>
    have hhead : e.requests = (id, ⟨method, params⟩) :: rest.filterMap Message.asRequest := hrequests.symm
    refine ⟨_, .single (.refuse id ⟨method, params⟩ _ hhead), hcalls, hpending, hclosed, rfl, hworks, ?_, ?_, ?_⟩
    · simp [hrefused]
    · intro r hr name hname
      rcases List.mem_append.mp hr with hr | hr
      · exact hunregistered r hr name hname
      · obtain rfl := List.mem_singleton.mp hr
        cases hname
        exact hmethods
    · rw [List.filterMap_append, hresponses]
      rfl
  | finish before after id method params reply hmine =>
    rw [hworks] at hmine
    obtain ⟨before', rest', hsplit, hbefore, hrest⟩ := List.map_eq_append_iff.mp hmine
    obtain ⟨w, after', rfl, hw, hafter⟩ := List.map_eq_cons_iff.mp hrest
    obtain ⟨id', question, result⟩ := w
    obtain ⟨hid, hmethod, hparams, hresult⟩ := Invocation.mk.inj hw
    cases hid
    subst hmethod hparams
    cases Option.map_eq_none_iff.mp hresult
    refine ⟨_, .single (.finish before' after' _ question reply hsplit), hcalls, hpending, hclosed, hrequests, ?_, hrefused,
      hunregistered, ?_⟩
    · rw [List.map_append, List.map_cons, hbefore, hafter]
      rfl
    · rw [List.filterMap_append, hresponses, List.filterMap_cons_some (message_plain reply _).2]
      rfl
  | answer m id reply n hm hmem =>
    rw [List.singleton_append, List.filterMap_cons_none (asRequest_of_asResponse hm)] at hrequests
    exact ⟨e, .refl, hcalls, hpending, hclosed, hrequests, hworks, hrefused, hunregistered, hnone ▸ hresponses⟩
  | drop m id reply hm hnot =>
    rw [List.singleton_append, List.filterMap_cons_none (asRequest_of_asResponse hm)] at hrequests
    exact ⟨e, .refl, hcalls, hpending, hclosed, hrequests, hworks, hrefused, hunregistered, hnone ▸ hresponses⟩
  | close => exact ⟨e, .refl, hcalls, hpending, hclosed, hrequests, hworks, hrefused, hunregistered, hnone ▸ hresponses⟩

end Refinement

/-! ### Bytes on their way -/

/-- What one connection wrote and the other has not handled is the lines of messages. -/
structure Link (a b : Connection) (ms : List Message) : Prop where
  proper : ∀ m ∈ ms, m.Proper
  lines : ∃ t, b.decoder.pushAll a.written = some (.start, t) ∧ b.buffer ++ t = ms.flatMap Message.line

namespace Link

variable {a b : Connection} {ms sent : List Message} {N : Numerals}

theorem pushAll_bytes (ms : List Message) : Utf8State.start.pushAll (bytes ms) = some (.start, ms.flatMap Message.line) := by
  induction ms with
  | nil => rfl
  | cons m ms ih =>
    have hcons : bytes (m :: ms) = utf8 m.line ++ bytes ms := List.flatMap_cons
    rw [hcons, Utf8State.pushAll_append (Utf8State.pushAll_utf8 m.wellFormed_line), ih]
    rfl

theorem write {a' : Connection} (h : Link a b ms) (hwritten : a'.written = a.written ++ bytes sent)
    (hproper : ∀ m ∈ sent, m.Proper) : Link a' b (ms ++ sent) := by
  obtain ⟨t, hpush, hlines⟩ := h.lines
  refine ⟨fun m hm => (List.mem_append.mp hm).elim (h.proper m) (hproper m), t ++ sent.flatMap Message.line, ?_, ?_⟩
  · rw [hwritten, Utf8State.pushAll_append hpush, pushAll_bytes]
    rfl
  · rw [← List.append_assoc, hlines, List.flatMap_append]

/-- Chunks may end anywhere. -/
theorem receive {xs ys : List UInt8} (h : Link a b ms) (hwritten : a.written = xs ++ ys) :
    Link { a with written := ys } (b.receive xs) ms := by
  obtain ⟨t, hpush, hlines⟩ := h.lines
  rw [hwritten] at hpush
  obtain ⟨s, t₁, t₂, hxs, hys, heq⟩ := Utf8State.exists_pushAll hpush
  have hfeed := Utf8State.feedAll_of_pushAll hxs
  refine ⟨h.proper, t₂, ?_, ?_⟩
  · rw [Connection.receive, hfeed]
    exact hys
  · rw [Connection.receive, hfeed, List.append_assoc, ← hlines]
    exact congrArg (b.buffer ++ ·) heq.symm

/-- The next line is the next message. -/
theorem nextLine {line : JsString} {b' : Connection} (h : Link a b ms) (hnext : b.nextLine = some (line, b')) :
    ∃ m rest, ms = m :: rest ∧ line = m.text ∧ m.Proper ∧ Link a b' rest := by
  obtain ⟨t, hpush, hlines⟩ := h.lines
  obtain ⟨tail, hbuffer, hline, rfl⟩ := Connection.eq_of_nextLine hnext
  cases ms with
  | nil =>
    rw [hbuffer] at hlines
    simp at hlines
  | cons m rest =>
    have hsplit : line ++ 10 :: (tail ++ t) = m.text ++ 10 :: rest.flatMap Message.line := by
      rw [hbuffer, List.flatMap_cons, List.append_assoc, List.cons_append] at hlines
      rw [hlines, Message.line, List.append_assoc]
      rfl
    obtain ⟨heq, htail⟩ := append_inj_of_run (P := fun u => u ≠ 10) (fun u hu h => hline (h ▸ hu))
      (fun u hu h => m.text_plain.1 (h ▸ hu)) (by simp) (by simp) hsplit
    refine ⟨m, rest, rfl, heq, h.proper m List.mem_cons_self, fun m' hm' => h.proper m' (List.mem_cons_of_mem _ hm'), t, hpush, ?_⟩
    exact (List.cons.inj htail).2

theorem handleLine {m : Message} (h : m.Proper) (c : Connection) :
    Connection.handleLine N m.text c = Connection.onMessage (.obj m.toObj) c := by
  rw [Connection.handleLine, if_neg m.text_plain.2, Message.parse_text h]

end Link

/-! ### Both connections -/

/-- Two connections, each reading what the other writes. -/
structure Pair where
  left : Connection := {}
  right : Connection := {}

/-- What can happen at one of two connections: something that it does not read, the next bytes that the other wrote, or the
next of its lines. -/
inductive Turn (N : Numerals) (a b : Connection) : Connection → Connection → Prop where
  | event (e : Connection.Event) (h : a.Local e) : Turn N a b (Connection.onEvent N e a) b
  | receives (xs ys : List UInt8) (h : b.written = xs ++ ys) : Turn N a b (a.receive xs) { b with written := ys }
  | line (line : JsString) (c : Connection) (h : a.nextLine = some (line, c)) : Turn N a b (Connection.handleLine N line c) b

/-- It is the turn of either side. -/
inductive Pair.Step (N : Numerals) (p : Pair) : Pair → Prop where
  | left {a b : Connection} (h : Turn N p.left p.right a b) : Step N p ⟨a, b⟩
  | right {a b : Connection} (h : Turn N p.right p.left b a) : Step N p ⟨a, b⟩

/-- The calls of one connection and what the other did for them are those of a run of an exchange. -/
def Exchanged (a b : Connection) (there back : List Message) : Prop :=
  ∃ e, ReflTransGen (Exchange.Step notFound) Exchange.initial e ∧ Refines a.account b.account there back e

/-- Messages are on their way in both directions, of an exchange for each. -/
def Linked (a b : Connection) : Prop :=
  ∃ there back, Link a b there ∧ Link b a back ∧ Exchanged a b there back ∧ Exchanged b a back there

namespace Linked

variable {a a' b b' : Connection} {N : Numerals}

theorem symm (h : Linked a b) : Linked b a := by
  obtain ⟨there, back, hthere, hback, hcalls, hcalls'⟩ := h
  exact ⟨back, there, hback, hthere, hcalls', hcalls⟩

theorem of_moves {taken sent there rest : List Message} (hmoves : a.Moves taken sent a') (hthere : Link a b there)
    (hback : Link b a rest) (hcalls : Exchanged a b there (taken ++ rest)) (hcalls' : Exchanged b a (taken ++ rest) there) :
    Linked a' b := by
  obtain ⟨e, hrun, href⟩ := hcalls
  obtain ⟨e₁, hstep, href₁⟩ := href.caller (Exchange.inv_of_steps hrun) hmoves.does
  obtain ⟨e', hrun', href'⟩ := hcalls'
  obtain ⟨e₂, hstep', href₂⟩ := href'.callee hmoves.does
  refine ⟨there ++ sent, rest, hthere.write hmoves.written hmoves.proper, ⟨hback.proper, ?_⟩, ⟨e₁, hrun.trans hstep, href₁⟩,
    ⟨e₂, hrun'.trans hstep', href₂⟩⟩
  rw [hmoves.decoder, hmoves.buffer]
  exact hback.lines

/-- The requests that a connection took have texts for their ids. -/
theorem ids {there back : List Message} (h : Exchanged a b there back) :
    ∀ i ∈ b.invocations, ∀ id ∈ i.id, ∃ s, id = .str s := by
  obtain ⟨e, -, href⟩ := h
  intro i hi id hid
  have hmem : i ∈ b.account.works := List.mem_filter.mpr ⟨hi, by rw [hid]; rfl⟩
  rw [href.works] at hmem
  obtain ⟨w, -, rfl⟩ := List.mem_map.mp hmem
  exact ⟨w.id, (Option.some.inj hid).symm⟩

theorem turn (h : Linked a b) (hturn : Turn N a b a' b') :
    Linked a' b' ∧ (a.closed = true → a'.closed = true) ∧ b'.closed = b.closed := by
  obtain ⟨there, back, hthere, hback, hcalls, hcalls'⟩ := h
  cases hturn with
  | event e hlocal =>
    obtain ⟨sent, hmoves⟩ := Connection.moves_of_local (N := N) hlocal (ids hcalls')
    exact ⟨of_moves hmoves hthere hback hcalls hcalls', hmoves.does.closed, rfl⟩
  | receives xs ys hwritten =>
    exact ⟨⟨there, back, ⟨hthere.proper, hthere.lines⟩, hback.receive hwritten, hcalls, hcalls'⟩, fun h => h, rfl⟩
  | line line c hnext =>
    obtain ⟨m, rest, rfl, rfl, hproper, hrest⟩ := hback.nextLine hnext
    obtain ⟨tail, _, _, rfl⟩ := Connection.eq_of_nextLine hnext
    rw [Link.handleLine hproper]
    obtain ⟨sent, hmoves⟩ := Connection.moves_of_message (c := { a with buffer := tail }) m
    exact ⟨of_moves hmoves ⟨hthere.proper, hthere.lines⟩ hrest hcalls hcalls', hmoves.does.closed, rfl⟩

theorem initial : Linked {} {} := by
  have hlink : Link {} {} [] := ⟨fun _ h => absurd h List.not_mem_nil, [], rfl, rfl⟩
  have hexchanged : Exchanged {} {} [] [] :=
    ⟨_, .refl, rfl, rfl, rfl, rfl, rfl, rfl, fun _ h => absurd h List.not_mem_nil, rfl⟩
  exact ⟨[], [], hlink, hlink, hexchanged, hexchanged⟩

end Linked

section Runs

variable {N : Numerals} {a b : Connection} {p p' : Pair}

theorem Pair.linked_of_step (h : Linked p.left p.right) (hstep : Pair.Step N p p') : Linked p'.left p'.right ∧
    (p.left.closed = true → p'.left.closed = true) ∧ (p.right.closed = true → p'.right.closed = true) := by
  cases hstep with
  | left hturn =>
    obtain ⟨hlinked, hclosed, hother⟩ := h.turn hturn
    exact ⟨hlinked, hclosed, hother.trans⟩
  | right hturn =>
    obtain ⟨hlinked, hclosed, hother⟩ := h.symm.turn hturn
    exact ⟨hlinked.symm, hother.trans, hclosed⟩

/-- **Every run of two connections is a run of two exchanges**, and what is closed stays closed. -/
theorem Pair.linked_of_steps (h : Linked p.left p.right) (hsteps : ReflTransGen (Pair.Step N) p p') :
    Linked p'.left p'.right ∧
      (p.left.closed = true → p'.left.closed = true) ∧ (p.right.closed = true → p'.right.closed = true) := by
  induction hsteps with
  | refl => exact ⟨h, fun h => h, fun h => h⟩
  | tail _ hstep ih =>
    obtain ⟨hlinked, hleft, hright⟩ := ih
    obtain ⟨hlinked', hleft', hright'⟩ := Pair.linked_of_step hlinked hstep
    exact ⟨hlinked', fun h => hleft' (hleft h), fun h => hright' (hright h)⟩

/-! ### What becomes of calls -/

/-- A handler was invoked for the request of an id. -/
def Invocation.isFor (id : JsString) (i : Invocation) : Bool := Value.strictEq i.id (.str id)

/-- The calls of a connection, and what the other one did for them. -/
structure Correlated (a b : Connection) : Prop where
  /-- A call settles once. -/
  once : ∀ call ∈ a.calls, call.settlements.length ≤ 1
  /-- What a call resolves with is the result of the handler that was invoked for it, and it was invoked once. -/
  resolved : ∀ call ∈ a.calls, ∀ v, .resolved v ∈ call.settlements → ∃ id, call.id = some id ∧
    b.invocations.filter (Invocation.isFor id) =
      [⟨some (.str id), call.method, call.params, some (.resolves v)⟩]
  /-- What a call rejects with is the message of that handler, or that there was no method. -/
  rejected : ∀ call ∈ a.calls, ∀ message, .peerError message ∈ call.settlements → ∃ id, call.id = some id ∧
    (b.invocations.filter (Invocation.isFor id) =
        [⟨some (.str id), call.method, call.params, some (.rejects (.error (some (.str message))))⟩] ∨
      b.invocations.filter (Invocation.isFor id) = [] ∧ message = methodNotFound call.method ∧
        ∃ r ∈ b.refusals, r.id = .str id ∧ r.method = some (.str call.method) ∧ call.method ∉ r.methods)
  /-- The calls that are not settled wait. -/
  waiting : ∀ n call, a.calls[n]? = some call → (call.settlements = [] ↔ ∃ id, (id, n) ∈ a.pending)
  /-- Closing rejects every call that waits. -/
  closing : ∀ id n, (id, n) ∈ a.pending → ∃ call, a.handleClose.calls[n]? = some call ∧ call.settlements = [.connectionClosed]
  /-- After that no call waits. -/
  closed : a.closed = true → a.pending = [] ∧ ∀ call ∈ a.calls, call.settlements ≠ []
  /-- No call is rejected for a close before that. -/
  unclosed : ∀ call ∈ a.calls, .connectionClosed ∈ call.settlements → a.closed = true
  /-- A later call is rejected. -/
  late : a.closed = true → ∀ id method params,
    (a.call id method params).calls = a.calls ++ [⟨none, method, params, [.connectionClosed]⟩]

/-- The invocations for an id are the works for it. -/
theorem Refines.invocations {there back : List Message} {e : Exchange JsString Question Reply}
    (h : Refines a.account b.account there back e) (id : JsString) :
    b.invocations.filter (Invocation.isFor id) = (e.works.filter fun w => w.id = id).map toInvocation := by
  have hworks : b.invocations.filter (fun i => i.id.isSome) = e.works.map toInvocation := h.works
  have hfilter : b.invocations.filter (Invocation.isFor id) =
      (b.invocations.filter fun i => i.id.isSome).filter (Invocation.isFor id) := by
    rw [List.filter_filter]
    refine List.filter_congr fun i _ => ?_
    rw [Invocation.isFor]
    cases i.id with
    | none => rfl
    | some v => exact (Bool.and_true _).symm
  have hfor : Invocation.isFor id ∘ toInvocation = fun w => decide (w.id = id) := by
    funext w
    rw [Function.comp_apply, Invocation.isFor, toInvocation, Value.strictEq, Option.any_some, Json.strictEq, beq_eq_decide]
  rw [hfilter, hworks, List.filter_map, hfor]

theorem Linked.correlated (h : Linked a b) : Correlated a b := by
  obtain ⟨there, back, -, -, ⟨e, hrun, href⟩, -⟩ := h
  have hinv := Exchange.inv_of_steps hrun
  have hcalls : a.calls = e.calls.map toCall := href.calls
  have hpending : a.pending = e.pending := href.pending
  have hclosed : a.closed = e.closed := href.closed
  have hcall : ∀ call ∈ a.calls, ∃ c ∈ e.calls, toCall c = call := fun call hmem => List.mem_map.mp (hcalls ▸ hmem)
  -- what a call was answered is what the exchange has for it
  have hanswer : ∀ c ∈ e.calls, ∀ reply : Reply, .answered reply ∈ c.settlements → ∃ id, c.id = some id ∧
      (b.invocations.filter (Invocation.isFor id) =
          [⟨some (.str id), c.request.method, c.request.params, some reply.result⟩] ∨
        (id, c.request) ∈ e.refused ∧ reply = notFound c.request ∧
          b.invocations.filter (Invocation.isFor id) = []) := by
    intro c hc reply hreply
    obtain ⟨id, hid, hresult⟩ := hinv.result hc hreply
    refine ⟨id, hid, ?_⟩
    rw [href.invocations]
    rcases hresult with hwork | ⟨hrefused, hreply, hnone⟩
    · rw [hwork]
      exact .inl rfl
    · rw [hnone]
      exact .inr ⟨hrefused, hreply, rfl⟩
  refine ⟨?_, ?_, ?_, ?_, ?_, ?_, ?_, ?_⟩
  · intro call hmem
    obtain ⟨c, hc, rfl⟩ := hcall call hmem
    exact (List.length_map _).trans_le (hinv.once c hc)
  · intro call hmem v hv
    obtain ⟨c, hc, rfl⟩ := hcall call hmem
    obtain ⟨s, hs, hout⟩ := List.mem_map.mp hv
    cases s with
    | closed => cases hout
    | answered reply =>
      obtain ⟨id, hid, hwork | ⟨-, rfl, -⟩⟩ := hanswer c hc reply hs
      · cases reply with
        | value v => cases hout; exact ⟨id, hid, hwork⟩
        | error message => cases hout
      · cases hout
  · intro call hmem message hmessage
    obtain ⟨c, hc, rfl⟩ := hcall call hmem
    obtain ⟨s, hs, hout⟩ := List.mem_map.mp hmessage
    cases s with
    | closed => cases hout
    | answered reply =>
      obtain ⟨id, hid, hwork | ⟨hrefused, rfl, hnone⟩⟩ := hanswer c hc reply hs
      · cases reply with
        | value v => cases hout
        | error message => cases hout; exact ⟨id, hid, .inl hwork⟩
      · cases hout
        have hmem : ((.str id, some (.str c.request.method)) : Json × Value) ∈
            b.refusals.map fun r => (r.id, r.method) := by
          have hrefusals : b.refusals.map (fun r => (r.id, r.method)) =
            e.refused.map fun r => (.str r.1, some (.str r.2.method)) := href.refused
          rw [hrefusals]
          exact List.mem_map.mpr ⟨_, hrefused, rfl⟩
        obtain ⟨r, hr, heq⟩ := List.mem_map.mp hmem
        obtain ⟨hrid, hrmethod⟩ := Prod.mk.inj heq
        exact ⟨id, hid, .inr ⟨hnone, rfl, r, hr, hrid, hrmethod, href.unregistered r hr _ hrmethod⟩⟩
  · intro n call hget
    rw [hcalls, List.getElem?_map] at hget
    obtain ⟨c, hc, rfl⟩ := Option.map_eq_some_iff.mp hget
    rw [hpending]
    constructor
    · intro hnil
      obtain ⟨id, -, hmem⟩ := hinv.unsettled n c hc (List.map_eq_nil_iff.mp hnil)
      exact ⟨id, hmem⟩
    · rintro ⟨id, hmem⟩
      obtain ⟨c', hc', -, hnil⟩ := hinv.waiting id n hmem
      obtain rfl := Option.some.inj (hc.symm.trans hc')
      exact List.map_eq_nil_iff.mpr hnil
  · intro id n hmem
    obtain ⟨c, hc, hsettled⟩ := hinv.settled_by_close (hpending ▸ hmem)
    have hclose : a.handleClose.calls = (settleAll e.pending e.calls).map toCall := by
      rw [Connection.calls_handleClose, hcalls, hpending, settleAll_map_toCall]
    refine ⟨toCall c, ?_, ?_⟩
    · rw [hclose, List.getElem?_map, hc]
      rfl
    · rw [toCall, hsettled]
      rfl
  · intro h
    obtain ⟨hnone, hsettled⟩ := hinv.settled_of_closed (hclosed ▸ h)
    refine ⟨hpending.trans hnone, fun call hmem => ?_⟩
    obtain ⟨c, hc, rfl⟩ := hcall call hmem
    exact fun hnil => hsettled c hc (List.map_eq_nil_iff.mp hnil)
  · intro call hmem hout
    obtain ⟨c, hc, rfl⟩ := hcall call hmem
    obtain ⟨s, hs, hout⟩ := List.mem_map.mp hout
    cases s with
    | closed => exact hclosed.trans (hinv.closedSettlement c hc hs)
    | answered reply => cases reply <;> cases hout
  · intro h id method params
    rw [Connection.call, if_pos h]

/-! ### Chunks and ends -/

/-- Neither side is special. -/
def Pair.swap (p : Pair) : Pair := ⟨p.right, p.left⟩

theorem Pair.steps_swap (h : ReflTransGen (Pair.Step N) p p') : ReflTransGen (Pair.Step N) p.swap p'.swap := by
  refine h.lift Pair.swap fun q q' hstep => ?_
  cases hstep with
  | left hturn => exact .right hturn
  | right hturn => exact .left hturn

theorem Pair.steps_of_drain (fuel : ℕ) : ReflTransGen (Pair.Step N) ⟨a, b⟩ ⟨Connection.drain N fuel a, b⟩ := by
  induction fuel generalizing a with
  | zero => exact .refl
  | succ fuel ih =>
    rw [Connection.drain]
    cases hnext : a.nextLine with
    | none => exact .refl
    | some next => exact .head (.left (.line next.1 next.2 hnext)) ih

/-- A chunk of what the other side wrote: its lines are handled one after the other. -/
theorem Pair.steps_of_data {xs ys : List UInt8} (h : b.written = xs ++ ys) :
    ReflTransGen (Pair.Step N) ⟨a, b⟩ ⟨Connection.onEvent N (.data xs) a, { b with written := ys }⟩ :=
  .head (.left (.receives xs ys h)) (Pair.steps_of_drain _)

/-- The end of the stream, once all that the other side wrote is read: the connection is closed. -/
theorem Pair.steps_of_streamEnd (h : Linked a b) (hread : b.written = []) :
    ReflTransGen (Pair.Step N) ⟨a, b⟩ ⟨Connection.onEvent N .streamEnd a, b⟩ := by
  obtain ⟨there, back, -, hback, -, -⟩ := h
  obtain ⟨t, hpush, -⟩ := hback.lines
  rw [hread] at hpush
  have hstart : a.decoder = .start := (Prod.mk.inj (Option.some.inj hpush)).1
  have hend : Connection.onEvent N .streamEnd a = Connection.handleClose (Connection.drain N a.buffer.length a) := by
    have hsame : { a with decoder := .start, buffer := a.buffer ++ a.decoder.finish } = a := by
      rw [← hstart, show a.decoder.finish = [] by rw [hstart]; rfl, List.append_nil]
    rw [Connection.onEvent, Connection.onEnd, hsame]
  rw [hend]
  exact .tail (Pair.steps_of_drain _) (.left (.event .close .close))

/-- One side reads all that the other wrote, the handler of a number settles, and the other side reads what is written. -/
theorem Pair.steps_of_answer (h : ReflTransGen (Pair.Step N) p ⟨a, b⟩) (k : ℕ) {reply : Reply} (hproper : reply.Proper)
    {answering : Connection} (hanswering : answering = Connection.onEvent N (.settled k reply.result) (Connection.onData N a.written b)) :
    ReflTransGen (Pair.Step N) p
      ⟨Connection.onData N answering.written { a with written := [] }, { answering with written := [] }⟩ := by
  have hread : ReflTransGen (Pair.Step N) ⟨a, b⟩ ⟨{ a with written := [] }, Connection.onData N a.written b⟩ :=
    Pair.steps_swap (Pair.steps_of_data (List.append_nil _).symm)
  have hsettle : Pair.Step N ⟨{ a with written := [] }, Connection.onData N a.written b⟩ ⟨{ a with written := [] }, answering⟩ := by
    rw [hanswering]
    exact .right (.event _ (.settled k _ fun _ _ _ => ⟨reply, hproper, rfl⟩))
  exact ((h.trans hread).tail hsettle).trans (Pair.steps_of_data (List.append_nil _).symm)

/-- **What becomes of calls.** In every run of two connections, for the calls of either side. -/
theorem Pair.calls_correlated (h : ReflTransGen (Pair.Step N) {} p) :
    Correlated p.left p.right ∧ Correlated p.right p.left ∧ ∀ p', ReflTransGen (Pair.Step N) p p' →
      (p.left.closed = true → p'.left.closed = true) ∧ (p.right.closed = true → p'.right.closed = true) := by
  have hlinked : Linked p.left p.right := (Pair.linked_of_steps Linked.initial h).1
  exact ⟨hlinked.correlated, hlinked.symm.correlated, fun p' hsteps => (Pair.linked_of_steps hlinked hsteps).2⟩

end Runs

/-- The promise was resolved with `true`. -/
def CallOutcome.isTrue : CallOutcome → Bool
  | .resolved (some (.bool true)) => true
  | _ => false

theorem settlements_of_isTrue {calls : List OutgoingCall}
    (h : calls.map (fun call => call.settlements.map CallOutcome.isTrue) = [[true]]) :
    calls.map (·.settlements) = [[.resolved (some (.bool true))]] := by
  obtain ⟨call, rfl, hcall⟩ := List.map_eq_singleton_iff.mp h
  obtain ⟨outcome, houtcome, htrue⟩ := List.map_eq_singleton_iff.mp hcall
  unfold CallOutcome.isTrue at htrue
  split at htrue
  · rw [List.map_singleton, houtcome]
  · cases htrue

/-- One side calls a method of the other, and reads the answer: the call is resolved with it. -/
theorem Pair.ping_correlated :
    let asked : Connection := Connection.call (js "1") (js "ping") none {}
    let ready : Connection := Connection.registerMethod (js "ping") {}
    let answering := Connection.onEvent Numerals.exact (.settled 0 (.resolves (some (.bool true))))
      (Connection.onData Numerals.exact asked.written ready)
    let answered := Connection.onData Numerals.exact answering.written { asked with written := [] }
    answered.calls.map (·.settlements) = [[.resolved (some (.bool true))]] ∧
      Correlated answered { answering with written := [] } := by
  intro asked ready answering answered
  refine ⟨settlements_of_isTrue (by decide +kernel), ?_⟩
  have hregister : ReflTransGen (Pair.Step Numerals.exact) {} ⟨{}, ready⟩ := .single (.right (.event _ (.registerMethod _)))
  have hcall : Pair.Step Numerals.exact ⟨{}, ready⟩ ⟨asked, ready⟩ :=
    .left (.event _ (.call _ _ _ (fun _ h => absurd h List.not_mem_nil) fun _ h => absurd h (Option.some_ne_none _).symm))
  have hproper : Reply.Proper (.value (.bool true)) := Json.Proper.bool true
  have hasked := hregister.tail hcall
  have hanswering : answering = Connection.onEvent Numerals.exact (.settled 0 (Reply.value (.bool true)).result)
      (Connection.onData Numerals.exact asked.written ready) := rfl
  have hanswered : answered = Connection.onData Numerals.exact answering.written { asked with written := [] } := rfl
  rw [hanswered]
  clear_value answered answering asked ready
  exact (Pair.calls_correlated (Pair.steps_of_answer hasked 0 hproper hanswering)).1

end Wanfw.Pluginhost
