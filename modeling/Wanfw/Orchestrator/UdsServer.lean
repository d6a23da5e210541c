import Wanfw.Js.JsonText
import Wanfw.Js.Regex
import Wanfw.Js.Url
import Wanfw.Js.Values

/-!
# The router of the sockets

`JsonUdsRouter` of `uds-server.ts`. `handle` parses the target and looks for the route before it
catches anything; the server does not wait for its promise. So it answers with an exception that
nobody handles where the target is no URL, where a segment that stands for a parameter cannot be
decoded, and where a handler throws `null`.

`matchParts_error_iff` and `matchRoute_error_iff` say when decoding fails, and
`handle_answers_iff` when a request gets its one response.
-/

namespace Wanfw.Orchestrator

open Wanfw.Js

/-! ### What the router is given -/

/-- What is thrown, with what `JSON.stringify` makes of its `message`. -/
inductive Thrown where
  | nullish
  | value (message : Except JsError (Option JsString))

/-- How a handler's promise settles, with what `JSON.stringify` makes of the body. -/
inductive HandlerOutcome where
  | resolves (status : ℤ) (body : Except JsError (Option JsString))
  | rejects (reason : Thrown)

/-- A request. -/
structure UdsRequest where
  method : Option JsString
  url : Option JsString
  /-- The chunks of the body, if the request does not break off. -/
  chunks : Except JsError (List (List UInt8))

/-- `RouteEntry`. -/
structure JsonUdsRouter.RouteEntry where
  method : JsString
  path : JsString
  handler : UdsRequest → Obj JsString → Value → HandlerOutcome

/-- A response that was written. -/
structure UdsResponse where
  status : ℤ
  payload : Option JsString
  deriving DecidableEq

/-! ### The source -/

/-- The parts of a path, `split("/").filter(Boolean)`. -/
def pathParts (path : JsString) : List JsString := (split path 47).filter fun part => part ≠ []

/-- The loop of `matchPath`. -/
def matchParts : List JsString → List JsString → Obj JsString → Except JsError (Option (Obj JsString))
  | p :: ps, a :: as, params =>
    if startsWith p (js ":") then do
      let value ← decodeURIComponent a
      matchParts ps as (params.assign (p.drop 1) value)
    else if p ≠ a then return none
    else matchParts ps as params
  | _, _, params => return some params

/-- `matchPath`. -/
def matchPath (pattern actual : JsString) : Except JsError (Option (Obj JsString)) :=
  if (pathParts pattern).length ≠ (pathParts actual).length then return none
  else matchParts (pathParts pattern) (pathParts actual) []

/-- `match`. -/
def matchRoute (routes : List JsonUdsRouter.RouteEntry) (method pathname : JsString) :
    Except JsError (Option (JsonUdsRouter.RouteEntry × Obj JsString)) :=
  match routes with
  | [] => return none
  | entry :: rest =>
    if entry.method ≠ method then matchRoute rest method pathname
    else do
      match ← matchPath entry.path pathname with
      | some params => return some (entry, params)
      | none => matchRoute rest method pathname

/-- `writeJson`, with the text of the body. A status that is none of HTTP's is refused. -/
def writeJson (status : ℤ) (payload : Option JsString) : Act (List UdsResponse) Unit :=
  if status < 100 ∨ 999 < status then
    Act.throw (.error (js "Invalid status code"))
  else Act.modify fun written => written ++ [⟨status, payload⟩]

/-- A body of texts. -/
def textBody (fields : Obj JsString) : Option JsString := some (stringify (.obj (fields.map fun e => (e.1, .str e.2))))

/-- The text of `{ error: "internal_error", message }`. -/
def internalError (message : Option JsString) : JsString :=
  js "\x7b\"error\":\"internal_error\"" ++ (message.map fun m => js ",\"message\":" ++ m).getD [] ++ js "\x7d"

section Router

variable (N : Numerals) (U : UrlParser) (syntaxError : JsString → JsString)

/-- `readJsonBody`. -/
def readJsonBody (req : UdsRequest) : Except JsError Value := do
  let chunks ← req.chunks
  if chunks.isEmpty then return none
  let raw := decodeUtf8 chunks.flatten
  if trim raw = [] then return none
  match parse N raw with
  | some body => return some body
  | none => .error (.error (syntaxError raw))

/-- The `catch` of `handle`. -/
def writeInternalError : Thrown → Act (List UdsResponse) Unit
  | .nullish => Act.throw (.typeError (js "Cannot read properties of undefined (reading 'message')"))
  | .value message => do
    let message ← Act.ofExcept message
    writeJson 500 (some (internalError message))

/-- What is written for the outcome of a handler. -/
def writeOutcome : HandlerOutcome → Act (List UdsResponse) Unit
  | .resolves status body =>
    Act.tryCatch (do
      let payload ← Act.ofExcept body
      writeJson status payload) fun e => writeInternalError (.value (.ok (some (quote e.message))))
  | .rejects reason => writeInternalError reason

/-- `handle`. -/
def handle (routes : List JsonUdsRouter.RouteEntry) (req : UdsRequest) : Act (List UdsResponse) Unit := do
  let pathname ← Act.ofExcept (U.pathname (req.url.getD (js "/")))
  let method := req.method.getD (js "GET")
  match ← Act.ofExcept (matchRoute routes method pathname) with
  | none => writeJson 404 (textBody [(js "error", js "not_found"), (js "method", method), (js "path", pathname)])
  | some (entry, params) =>
    match readJsonBody N syntaxError req with
    | .error e => writeJson 400 (textBody [(js "error", js "invalid_json"), (js "message", e.message)])
    | .ok body => writeOutcome (entry.handler req params body)

/-- The handler that a request reaches, with its parameters and its body. -/
def reached (routes : List JsonUdsRouter.RouteEntry) (req : UdsRequest) :
    Option (JsonUdsRouter.RouteEntry × Obj JsString × Value) :=
  match (U.pathname (req.url.getD (js "/"))).bind (matchRoute routes (req.method.getD (js "GET"))) with
  | .ok (some (entry, params)) =>
    match readJsonBody N syntaxError req with
    | .ok body => some (entry, params, body)
    | .error _ => none
  | _ => none

end Router

/-! ### When decoding fails -/

/-- The text is not what `encodeURIComponent` can make: a `%` without two digits, or bytes that are no UTF-8. -/
def Malformed (text : JsString) : Prop := (pieces text).bind (decodePieces .start) = none

theorem decodeURIComponent_error_iff {text : JsString} : (∃ e, decodeURIComponent text = .error e) ↔ Malformed text := by
  unfold decodeURIComponent Malformed
  cases (pieces text).bind (decodePieces .start) with
  | none => exact iff_of_true ⟨_, rfl⟩ rfl
  | some t => exact iff_of_false (by simp) (by simp)

/-- Before the parts of a path differ from those of a pattern, one of them stands for a parameter and is
malformed. -/
def Undecodable : List JsString → List JsString → Prop
  | p :: ps, a :: as => if startsWith p (js ":") then Malformed a ∨ Undecodable ps as else p = a ∧ Undecodable ps as
  | _, _ => False

theorem matchParts_error_iff (ps as : List JsString) (params : Obj JsString) :
    (∃ e, matchParts ps as params = .error e) ↔ Undecodable ps as := by
  induction ps generalizing as params with
  | nil => exact iff_of_false (by simp [matchParts, pure, Except.pure]) id
  | cons p ps ih =>
    cases as with
    | nil => exact iff_of_false (by simp [matchParts, pure, Except.pure]) id
    | cons a as =>
      rw [matchParts, Undecodable]
      split
      · cases hdecode : decodeURIComponent a with
        | error e =>
          exact iff_of_true ⟨e, rfl⟩ (.inl (decodeURIComponent_error_iff.mp ⟨e, hdecode⟩))
        | ok value =>
          have hnot : ¬ Malformed a := fun h => by
            obtain ⟨e, he⟩ := decodeURIComponent_error_iff.mpr h
            rw [hdecode] at he
            cases he
          rw [or_iff_right hnot]
          exact ih as _
      · split
        · rename_i hne
          exact iff_of_false (by simp [pure, Except.pure]) fun h => hne h.1
        · rename_i heq
          rw [ih, and_iff_right (not_not.mp heq)]

/-- A path that cannot be matched with a pattern. -/
def UndecodablePath (pattern actual : JsString) : Prop :=
  (pathParts pattern).length = (pathParts actual).length ∧ Undecodable (pathParts pattern) (pathParts actual)

theorem matchPath_error_iff (pattern actual : JsString) :
    (∃ e, matchPath pattern actual = .error e) ↔ UndecodablePath pattern actual := by
  unfold matchPath UndecodablePath
  split
  · rename_i hne
    exact iff_of_false (by simp [pure, Except.pure]) fun h => hne h.1
  · rename_i heq
    rw [matchParts_error_iff, and_iff_right (not_not.mp heq)]

/-- Among the routes of the method, the path cannot be matched with one, and matches none before it. -/
def UndecodableRoute (routes : List JsonUdsRouter.RouteEntry) (method pathname : JsString) : Prop :=
  ∃ before entry after, routes = before ++ entry :: after ∧ entry.method = method ∧ UndecodablePath entry.path pathname ∧
    ∀ other ∈ before, other.method = method → matchPath other.path pathname = .ok none

theorem undecodableRoute_cons {entry : JsonUdsRouter.RouteEntry} {rest : List JsonUdsRouter.RouteEntry} {method pathname : JsString} :
    UndecodableRoute (entry :: rest) method pathname ↔
      entry.method = method ∧ UndecodablePath entry.path pathname ∨
        (entry.method = method → matchPath entry.path pathname = .ok none) ∧ UndecodableRoute rest method pathname := by
  constructor
  · rintro ⟨before, entry', after, hroutes, hmethod, hpath, hbefore⟩
    cases before with
    | nil =>
      cases hroutes
      exact .inl ⟨hmethod, hpath⟩
    | cons first before =>
      cases hroutes
      exact .inr ⟨hbefore entry List.mem_cons_self, before, entry', after, rfl, hmethod, hpath,
        fun other hother => hbefore other (List.mem_cons_of_mem _ hother)⟩
  · rintro (⟨hmethod, hpath⟩ | ⟨hfirst, before, entry', after, rfl, hmethod, hpath, hbefore⟩)
    · exact ⟨[], entry, rest, rfl, hmethod, hpath, fun _ h => absurd h List.not_mem_nil⟩
    · refine ⟨entry :: before, entry', after, rfl, hmethod, hpath, fun other hother => ?_⟩
      rcases List.mem_cons.mp hother with rfl | hother
      · exact hfirst
      · exact hbefore other hother

theorem matchRoute_error_iff (routes : List JsonUdsRouter.RouteEntry) (method pathname : JsString) :
    (∃ e, matchRoute routes method pathname = .error e) ↔ UndecodableRoute routes method pathname := by
  induction routes with
  | nil =>
    refine iff_of_false (by simp [matchRoute, pure, Except.pure]) ?_
    rintro ⟨before, entry, after, hroutes, -⟩
    simp at hroutes
  | cons entry rest ih =>
    rw [matchRoute, undecodableRoute_cons, ← matchPath_error_iff, ← ih]
    split
    · rename_i hne
      simp [hne]
    · rename_i heq
      rw [not_not] at heq
      cases hmatch : matchPath entry.path pathname with
      | error e => simp [bind, Except.bind, heq]
      | ok params => cases params <;> simp [bind, Except.bind, pure, Except.pure, heq]

/-! ### Which requests are answered -/

/-- One response, and no exception. -/
def Answered (r : Except JsError Unit × List UdsResponse) : Prop := r.1 = .ok () ∧ ∃ response, r.2 = [response]

/-- A handler's exception that has no message to report: `null` or `undefined`, or a message that is no JSON. -/
def HandlerOutcome.Unreportable : HandlerOutcome → Prop
  | .resolves _ _ => False
  | .rejects .nullish => True
  | .rejects (.value message) => ∃ e, message = .error e

theorem answered_writeJson {status : ℤ} (h : ¬ (status < 100 ∨ 999 < status)) (payload : Option JsString) :
    Answered (writeJson status payload []) := by
  rw [writeJson, if_neg h]
  exact ⟨rfl, _, rfl⟩

theorem answered_writeOutcome_iff (outcome : HandlerOutcome) :
    Answered (writeOutcome outcome []) ↔ ¬ outcome.Unreportable := by
  have hinternal : ∀ message, Answered (writeInternalError (.value (.ok message)) []) := fun message =>
    answered_writeJson (by decide) _
  cases outcome with
  | resolves status body =>
    refine iff_of_true ?_ id
    rw [writeOutcome, Act.tryCatch]
    cases body with
    | error e => exact hinternal _
    | ok payload =>
      by_cases hstatus : status < 100 ∨ 999 < status
      · have hthrow : (Act.ofExcept (.ok payload) >>= writeJson status) [] =
            (.error (.error (js "Invalid status code")), []) := by
          rw [Act.ofExcept_ok_bind, writeJson, if_pos hstatus]
          rfl
        rw [hthrow]
        exact hinternal _
      · have hwrite : (Act.ofExcept (.ok payload) >>= writeJson status) [] = (.ok (), [⟨status, payload⟩]) := by
          rw [Act.ofExcept_ok_bind, writeJson, if_neg hstatus]
          rfl
        rw [hwrite]
        exact ⟨rfl, _, rfl⟩
  | rejects reason =>
    cases reason with
    | nullish => exact iff_of_false (fun h => by cases h.1) (not_not_intro trivial)
    | value message =>
      cases message with
      | error e => exact iff_of_false (fun h => by cases h.1) (not_not_intro ⟨e, rfl⟩)
      | ok message => exact iff_of_true (hinternal message) fun ⟨e, h⟩ => by cases h

/-- **When a request is answered**: the target is a URL, no parameter is malformed in a route that is tried,
and the handler throws nothing without a message. -/
theorem handle_answers_iff (N : Numerals) (U : UrlParser) (syntaxError : JsString → JsString) (routes : List JsonUdsRouter.RouteEntry)
    (req : UdsRequest) : Answered (handle N U syntaxError routes req []) ↔
      ∃ pathname, U.pathname (req.url.getD (js "/")) = .ok pathname ∧
        ¬ UndecodableRoute routes (req.method.getD (js "GET")) pathname ∧
        ∀ entry params body, matchRoute routes (req.method.getD (js "GET")) pathname = .ok (some (entry, params)) →
          readJsonBody N syntaxError req = .ok body → ¬ (entry.handler req params body).Unreportable := by
  rw [handle]
  cases hurl : U.pathname (req.url.getD (js "/")) with
  | error e => exact iff_of_false (fun h => by cases h.1) fun ⟨_, h, _⟩ => by cases h
  | ok pathname =>
    have hexists : ∀ P : JsString → Prop, (∃ path, (.ok pathname : Except JsError JsString) = .ok path ∧ P path) ↔ P pathname :=
      fun P => ⟨fun ⟨_, h, hP⟩ => by cases h; exact hP, fun hP => ⟨pathname, rfl, hP⟩⟩
    rw [Act.ofExcept_ok_bind, hexists, ← matchRoute_error_iff]
    cases hroute : matchRoute routes (req.method.getD (js "GET")) pathname with
    | error e => exact iff_of_false (fun h => by cases h.1) fun h => h.1 ⟨e, rfl⟩
    | ok found =>
      rw [Act.ofExcept_ok_bind]
      have hnot : ¬ ∃ e, (.ok found : Except JsError (Option (JsonUdsRouter.RouteEntry × Obj JsString))) = .error e := by simp
      rw [and_iff_right hnot]
      cases found with
      | none => exact iff_of_true (answered_writeJson (by decide) _) fun _ _ _ h => by cases h
      | some found =>
        obtain ⟨entry, params⟩ := found
        dsimp only
        cases hbody : readJsonBody N syntaxError req with
        | error e => exact iff_of_true (answered_writeJson (by decide) _) fun _ _ _ _ h => by cases h
        | ok body =>
          refine (answered_writeOutcome_iff _).trans ⟨fun h entry' params' body' hfound hbody' => ?_, fun h => ?_⟩
          · cases hfound
            cases hbody'
            exact h
          · exact h entry params body rfl rfl

theorem reached_iff {N : Numerals} {U : UrlParser} {syntaxError : JsString → JsString}
    {routes : List JsonUdsRouter.RouteEntry} {req : UdsRequest} {entry : JsonUdsRouter.RouteEntry} {params : Obj JsString}
    {body : Value} : reached N U syntaxError routes req = some (entry, params, body) ↔
      ∃ pathname, U.pathname (req.url.getD (js "/")) = .ok pathname ∧
        matchRoute routes (req.method.getD (js "GET")) pathname = .ok (some (entry, params)) ∧
        readJsonBody N syntaxError req = .ok body := by
  rw [reached]
  cases U.pathname (req.url.getD (js "/")) with
  | error e => exact iff_of_false (by simp [Except.bind]) fun ⟨_, h, _⟩ => by cases h
  | ok pathname =>
    cases hroute : matchRoute routes (req.method.getD (js "GET")) pathname with
    | error e => simp [Except.bind, hroute]
    | ok found =>
      cases found with
      | none => simp [Except.bind, hroute]
      | some found => cases readJsonBody N syntaxError req <;> simp [Except.bind, hroute, Prod.ext_iff, and_assoc]

/-- What is written when a handler is reached. -/
theorem handle_reached {N : Numerals} {U : UrlParser} {syntaxError : JsString → JsString}
    {routes : List JsonUdsRouter.RouteEntry} {req : UdsRequest} {entry : JsonUdsRouter.RouteEntry} {params : Obj JsString}
    {body : Value} (h : reached N U syntaxError routes req = some (entry, params, body)) :
    handle N U syntaxError routes req = writeOutcome (entry.handler req params body) := by
  obtain ⟨pathname, hurl, hroute, hbody⟩ := reached_iff.mp h
  rw [handle, hurl, Act.ofExcept_ok_bind]
  dsimp only
  rw [hroute, Act.ofExcept_ok_bind]
  dsimp only
  rw [hbody]

/-- A table with one route of the status socket. -/
def pluginRoutes : List JsonUdsRouter.RouteEntry :=
  [⟨js "GET", js "/plugins/:id", fun _ _ _ => .resolves 200 (.ok (some (js "\x7b\x7d")))⟩]

/-- A parameter that cannot be decoded ends the request with an exception, and without a response. -/
theorem malformed_unanswered : ¬ Answered
    (handle Numerals.exact UrlParser.origin (fun _ => []) pluginRoutes ⟨some (js "GET"), some (js "/plugins/%zz"), .ok []⟩ []) := by
  rintro ⟨h, -⟩
  have herror : (handle Numerals.exact UrlParser.origin (fun _ => []) pluginRoutes
      ⟨some (js "GET"), some (js "/plugins/%zz"), .ok []⟩ []).1 = .error (.error (js "URI malformed")) := by
    decide +kernel
  rw [herror] at h
  cases h

end Wanfw.Orchestrator
