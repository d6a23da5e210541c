import Wanfw.Js.Path
import Wanfw.Orchestrator.UdsServer

/-!
# The status of a service

`GET /status/services/:id` of `status-socket.ts` opens the file of the service in
`statusDir/services`. The target is normalized before its route is found, the parameter is decoded
after the path is split, and the path of the file is normalized once more: a decoded slash stands
in the name of the file, where `..` climbs.

`statusRead_iff` says which file a request opens; `service_contained_iff` when that file
is an entry of `statusDir/services`.
-/

namespace Wanfw.Orchestrator

open Wanfw.Js

namespace StatusSocket

/-! ### The source -/

/-- `` join(extra.statusDir, "services", `${params.id}.json`) ``. -/
def serviceFile (statusDir id : JsString) : JsString := joinPaths [statusDir, js "services", id ++ js ".json"]

/-- The file that `readFile` opens. A path with a NUL is refused. -/
def opened (path : JsString) : Option JsString := if (0 : UInt16) ∈ path then none else some path

/-- The file that the handler of `GET /status/services/:id` opens, if there is a directory. -/
def serviceRead (statusDir : Option JsString) (params : Obj JsString) : Option JsString :=
  (statusDir.filter fun dir => dir ≠ []).bind fun dir =>
    opened (serviceFile dir ((params.get (js "id")).getD (js "undefined")))

/-- The path of the route. -/
def servicePath : JsString := js "/status/services/:id"

section Routes

variable (N : Numerals) (U : UrlParser) (syntaxError : JsString → JsString)
  (others : JsString → JsString → UdsRequest → Obj JsString → Value → HandlerOutcome)
  (readFile : JsString → Option JsString) (statusDir : Option JsString)

/-- The handler of `GET /status/services/:id`. -/
def getService (_req : UdsRequest) (params : Obj JsString) (_body : Value) : HandlerOutcome :=
  match ((serviceRead statusDir params).bind readFile).bind (parse N) with
  | some body => .resolves 200 (.ok (some (stringify body)))
  | none => .resolves 404 (.ok (textBody [(js "error", js "not_found"),
      (js "message", js "no service '" ++ (params.get (js "id")).getD (js "undefined") ++ js "'")]))

/-- A route whose handler is not looked at. -/
def otherRoute (method path : JsString) : JsonUdsRouter.RouteEntry := ⟨method, path, others method path⟩

/-- The routes of `buildStatusSocketRouter`, in their order. -/
def statusRoutes : List JsonUdsRouter.RouteEntry :=
  [otherRoute others (js "GET") (js "/status"), otherRoute others (js "GET") (js "/status/services"),
    ⟨js "GET", servicePath, getService N readFile statusDir⟩, otherRoute others (js "GET") (js "/schema"),
    otherRoute others (js "GET") (js "/approvals/pending"), otherRoute others (js "POST") (js "/validate"),
    otherRoute others (js "POST") (js "/nudge"), otherRoute others (js "GET") (js "/plugins"),
    otherRoute others (js "GET") (js "/plugins/:id"), otherRoute others (js "GET") (js "/plans"),
    otherRoute others (js "GET") (js "/plans/:id"), otherRoute others (js "GET") (js "/secrets"),
    otherRoute others (js "GET") (js "/certs"), otherRoute others (js "GET") (js "/framework"),
    otherRoute others (js "GET") (js "/operator-info"), otherRoute others (js "GET") (js "/audit"),
    otherRoute others (js "GET") (js "/doctor")]

/-- The file that a request for the status of a service opens. -/
def statusRead (req : UdsRequest) : Option JsString :=
  match reached N U syntaxError (statusRoutes N others readFile statusDir) req with
  | some (entry, params, _) => if entry.path = servicePath then serviceRead statusDir params else none
  | none => none

end Routes

/-! ### Which handler is reached -/

/-- A request for the status of the service `id`: the third part of the path, decoded. -/
def ServiceRequest (N : Numerals) (U : UrlParser) (syntaxError : JsString → JsString) (req : UdsRequest) (id : JsString) :
    Prop :=
  req.method.getD (js "GET") = js "GET" ∧ (∃ body, readJsonBody N syntaxError req = .ok body) ∧
    ∃ pathname segment, U.pathname (req.url.getD (js "/")) = .ok pathname ∧
      pathParts pathname = [js "status", js "services", segment] ∧ decodeURIComponent segment = .ok id

theorem pathParts_servicePath : pathParts servicePath = [js "status", js "services", js ":id"] := by decide +kernel

theorem matchPath_of_length {pattern actual : JsString} (h : (pathParts pattern).length ≠ (pathParts actual).length) :
    matchPath pattern actual = .ok none := by
  rw [matchPath, if_pos h]
  rfl

theorem matchPath_servicePath_iff {actual : JsString} {params : Obj JsString} :
    matchPath servicePath actual = .ok (some params) ↔ ∃ segment id,
      pathParts actual = [js "status", js "services", segment] ∧ decodeURIComponent segment = .ok id ∧
        params = [(js "id", id)] := by
  have hplain : startsWith (js "status") (js ":") = false ∧ startsWith (js "services") (js ":") = false ∧
      startsWith (js ":id") (js ":") = true ∧ (js ":id").drop 1 = js "id" := by decide +kernel
  obtain ⟨hstatus, hservices, hid, hname⟩ := hplain
  rw [matchPath, pathParts_servicePath]
  constructor
  · intro h
    split at h
    · cases h
    · rename_i hlength
      rw [not_not] at hlength
      obtain ⟨a, b, segment, hparts⟩ := List.length_eq_three.mp hlength.symm
      rw [hparts, matchParts, hstatus, if_neg (by decide)] at h
      split at h
      · cases h
      · rename_i ha
        rw [matchParts, hservices, if_neg (by decide)] at h
        split at h
        · cases h
        · rename_i hb
          rw [matchParts, hid, if_pos rfl, hname] at h
          rw [not_not] at ha hb
          cases hdecode : decodeURIComponent segment with
          | error e =>
            rw [hdecode] at h
            cases h
          | ok id =>
            rw [hdecode] at h
            cases h
            exact ⟨segment, id, by rw [hparts, ha, hb], hdecode, rfl⟩
  · rintro ⟨segment, id, hparts, hdecode, rfl⟩
    rw [hparts, if_neg (by simp), matchParts, hstatus, if_neg (by decide), if_neg (by simp), matchParts, hservices,
      if_neg (by decide), if_neg (by simp), matchParts, hid, if_pos rfl, hname, hdecode]
    rfl

theorem mem_of_matchRoute {routes : List JsonUdsRouter.RouteEntry} {method pathname : JsString}
    {entry : JsonUdsRouter.RouteEntry} {params : Obj JsString}
    (h : matchRoute routes method pathname = .ok (some (entry, params))) :
    entry ∈ routes ∧ entry.method = method ∧ matchPath entry.path pathname = .ok (some params) := by
  induction routes with
  | nil => cases h
  | cons first rest ih =>
    rw [matchRoute] at h
    split at h
    · obtain ⟨hmem, hrest⟩ := ih h
      exact ⟨List.mem_cons_of_mem _ hmem, hrest⟩
    · rename_i hmethod
      rw [not_not] at hmethod
      cases hmatch : matchPath first.path pathname with
      | error e =>
        rw [hmatch] at h
        cases h
      | ok found =>
        rw [hmatch] at h
        cases found with
        | none =>
          obtain ⟨hmem, hrest⟩ := ih h
          exact ⟨List.mem_cons_of_mem _ hmem, hrest⟩
        | some found =>
          cases h
          exact ⟨List.mem_cons_self, hmethod, hmatch⟩

section Requests

variable {N : Numerals} {U : UrlParser} {syntaxError : JsString → JsString}
  {others : JsString → JsString → UdsRequest → Obj JsString → Value → HandlerOutcome}
  {readFile : JsString → Option JsString} {statusDir : Option JsString}

theorem matchRoute_service {pathname segment id : JsString} (hparts : pathParts pathname = [js "status", js "services", segment])
    (hdecode : decodeURIComponent segment = .ok id) :
    matchRoute (statusRoutes N others readFile statusDir) (js "GET") pathname =
      .ok (some (⟨js "GET", servicePath, getService N readFile statusDir⟩, [(js "id", id)])) := by
  have hstatus : matchPath (js "/status") pathname = .ok none := by
    apply matchPath_of_length
    rw [hparts, show pathParts (js "/status") = [js "status"] by decide +kernel]
    simp
  have hservices : matchPath (js "/status/services") pathname = .ok none := by
    apply matchPath_of_length
    rw [hparts, show pathParts (js "/status/services") = [js "status", js "services"] by decide +kernel]
    simp
  have hservice := matchPath_servicePath_iff.mpr ⟨segment, id, hparts, hdecode, rfl⟩
  rw [statusRoutes, matchRoute, if_neg (by simp [otherRoute])]
  simp only [otherRoute]
  rw [hstatus]
  change matchRoute _ _ _ = _
  rw [matchRoute, if_neg (by simp), hservices]
  change matchRoute _ _ _ = _
  rw [matchRoute, if_neg (by simp), hservice]
  rfl

theorem statusRoutes_get {entry : JsonUdsRouter.RouteEntry} (h : entry ∈ statusRoutes N others readFile statusDir)
    (hpath : entry.path = servicePath) : entry.method = js "GET" := by
  have hvalidate : js "/validate" ≠ servicePath := by decide
  have hnudge : js "/nudge" ≠ servicePath := by decide
  simp only [statusRoutes, List.mem_cons, List.not_mem_nil, or_false] at h
  rcases h with rfl | rfl | rfl | rfl | rfl | rfl | rfl | rfl | rfl | rfl | rfl | rfl | rfl | rfl | rfl | rfl | rfl <;>
    first | rfl | exact absurd hpath hvalidate | exact absurd hpath hnudge

/-- **Which file a request opens**: the one of the service that it asks for. -/
theorem statusRead_iff {req : UdsRequest} {file : JsString} :
    statusRead N U syntaxError others readFile statusDir req = some file ↔ ∃ dir id, statusDir = some dir ∧ dir ≠ [] ∧
      ServiceRequest N U syntaxError req id ∧ opened (serviceFile dir id) = some file := by
  have hread : ∀ id, serviceRead statusDir [(js "id", id)] = some file ↔
      ∃ dir, statusDir = some dir ∧ dir ≠ [] ∧ opened (serviceFile dir id) = some file := by
    intro id
    have hget : (Obj.get [(js "id", id)] (js "id")).getD (js "undefined") = id := by simp [Obj.get]
    rw [serviceRead, hget]
    simp [Option.bind_eq_some_iff, Option.filter_eq_some_iff, and_assoc]
  rw [statusRead]
  constructor
  · intro h
    cases hreached : reached N U syntaxError (statusRoutes N others readFile statusDir) req with
    | none =>
      rw [hreached] at h
      cases h
    | some found =>
      obtain ⟨entry, params, body⟩ := found
      rw [hreached] at h
      dsimp only at h
      split at h
      · rename_i hpath
        obtain ⟨pathname, hurl, hroute, hbody⟩ := reached_iff.mp hreached
        obtain ⟨hmem, hmethod, hmatch⟩ := mem_of_matchRoute hroute
        rw [hpath] at hmatch
        obtain ⟨segment, id, hparts, hdecode, rfl⟩ := matchPath_servicePath_iff.mp hmatch
        obtain ⟨dir, hdir, hne, hopened⟩ := (hread id).mp h
        exact ⟨dir, id, hdir, hne,
          ⟨hmethod ▸ statusRoutes_get hmem hpath, ⟨body, hbody⟩, pathname, segment, hurl, hparts, hdecode⟩, hopened⟩
      · cases h
  · rintro ⟨dir, id, hdir, hne, ⟨hmethod, ⟨body, hbody⟩, pathname, segment, hurl, hparts, hdecode⟩, hopened⟩
    have hreached : reached N U syntaxError (statusRoutes N others readFile statusDir) req =
        some (⟨js "GET", servicePath, getService N readFile statusDir⟩, [(js "id", id)], body) := by
      apply reached_iff.mpr
      refine ⟨pathname, hurl, ?_, hbody⟩
      rw [hmethod]
      exact matchRoute_service hparts hdecode
    rw [hreached]
    exact (if_pos rfl).trans ((hread id).mpr ⟨dir, hdir, hne, hopened⟩)

end Requests

/-! ### Where the file is -/

/-- `statusDir/services`. -/
def servicesDir (statusDir : JsString) : JsString := joinPaths [statusDir, js "services"]

/-- A file is an entry of `statusDir/services`. -/
def Contained (statusDir file : JsString) : Prop :=
  isAbsolute file = isAbsolute statusDir ∧ (normal (servicesDir statusDir)).Entry (normal file)

/-- The name of a service stays in the directory: as a relative path its file is one name, or climbs and comes back to
the directory for one. -/
def Stays (statusDir id : JsString) : Prop :=
  ∃ x, Normal.Returns (isAbsolute statusDir) (normal (servicesDir statusDir)) (relative (id ++ js ".json")) [x]

/-- The name of a service keeps a NUL, in what is left of its path. -/
def KeepsNul (statusDir id : JsString) : Prop :=
  ∃ name ∈ (Normal.climb (isAbsolute statusDir) (normal (servicesDir statusDir)) (relative (id ++ js ".json"))).names,
    (0 : UInt16) ∈ name

section Containment

variable {statusDir : JsString}

theorem normal_serviceFile (hdir : statusDir ≠ []) (id : JsString) : normal (serviceFile statusDir id) =
      Normal.climb (isAbsolute statusDir) (normal (servicesDir statusDir)) (relative (id ++ js ".json")) ∧
    isAbsolute (serviceFile statusDir id) = isAbsolute statusDir := by
  obtain ⟨hfile, habs⟩ := normal_joinPaths hdir [js "services", id ++ js ".json"]
  refine ⟨?_, habs⟩
  rw [serviceFile, hfile, servicesDir, (normal_joinPaths hdir [js "services"]).1, List.flatMap_cons, List.flatMap_cons,
    List.flatMap_cons, List.flatMap_nil, List.append_nil, List.append_nil, Normal.walk_append]
  exact Normal.walk_eq_climb _ _ _

theorem opened_contained_iff (hdir : statusDir ≠ []) (id : JsString) :
    Contained statusDir (serviceFile statusDir id) ↔ Stays statusDir id := by
  obtain ⟨hnormal, habs⟩ := normal_serviceFile hdir id
  rw [Contained, hnormal, and_iff_right habs]
  exact Normal.entry_climb_iff

theorem opened_serviceFile_iff (hdir : statusDir ≠ []) (id : JsString) {file : JsString} :
    opened (serviceFile statusDir id) = some file ↔ ¬ KeepsNul statusDir id ∧ serviceFile statusDir id = file := by
  have hnul : (0 : UInt16) ∈ serviceFile statusDir id ↔ KeepsNul statusDir id := by
    rw [KeepsNul, ← (normal_serviceFile hdir id).1, serviceFile, joinPaths, (normal_normalize _).1]
    exact mem_normalize_iff (by decide)
  rw [opened, ← hnul]
  split <;> simp_all

end Containment

/-- A name without a slash stays. -/
theorem stays_of_plain (statusDir : JsString) {id : JsString} (h : (47 : UInt16) ∉ id) : Stays statusDir id := by
  have hslash : (47 : UInt16) ∉ id ++ js ".json" := by
    rw [List.mem_append, not_or]
    exact ⟨h, by decide⟩
  have hname : Normal.IsName (id ++ js ".json") := by
    refine Normal.isName_of_length ?_ hslash
    rw [List.length_append]
    exact Nat.lt_of_lt_of_le (by decide) (Nat.le_add_left _ _)
  have hrelative : relative (id ++ js ".json") = ⟨0, [id ++ js ".json"]⟩ := by
    rw [relative, split_of_not_mem hslash]
    exact Normal.push_name hname
  refine ⟨id ++ js ".json", ?_⟩
  rw [hrelative]
  exact ⟨.inr (Nat.zero_le _), by simp⟩

/-- **When the file is in `statusDir/services`**: for the decoded name of every request, the path of its file stays in
the directory, or it keeps a NUL and is not opened. -/
theorem service_contained_iff (N : Numerals) (U : UrlParser) (syntaxError : JsString → JsString)
    (others : JsString → JsString → UdsRequest → Obj JsString → Value → HandlerOutcome)
    (readFile : JsString → Option JsString) (statusDir : Option JsString) (req : UdsRequest) :
    (∀ file, statusRead N U syntaxError others readFile statusDir req = some file →
        ∃ dir, statusDir = some dir ∧ Contained dir file) ↔
      ∀ dir id, statusDir = some dir → dir ≠ [] → ServiceRequest N U syntaxError req id →
        Stays dir id ∨ KeepsNul dir id := by
  constructor
  · intro h dir id hdir hne hrequest
    by_cases hnul : KeepsNul dir id
    · exact .inr hnul
    · obtain ⟨dir', hdir', hcontained⟩ := h _ (statusRead_iff.mpr
        ⟨dir, id, hdir, hne, hrequest, (opened_serviceFile_iff hne id).mpr ⟨hnul, rfl⟩⟩)
      obtain rfl : dir = dir' := Option.some.inj (hdir.symm.trans hdir')
      exact .inl ((opened_contained_iff hne id).mp hcontained)
  · intro h file hread
    obtain ⟨dir, id, hdir, hne, hrequest, hopened⟩ := statusRead_iff.mp hread
    obtain ⟨hnul, rfl⟩ := (opened_serviceFile_iff hne id).mp hopened
    have hstays := (h dir id hdir hne hrequest).resolve_right hnul
    exact ⟨dir, hdir, (opened_contained_iff hne id).mpr hstays⟩

/-- A request for the schema, as a service. -/
def climbing : UdsRequest := ⟨some (js "GET"), some (js "/status/services/%2e%2e%2fschema"), .ok []⟩

/-- An escaped slash climbs out of the directory. -/
theorem schema_read : ¬ ∀ file,
    statusRead Numerals.exact UrlParser.origin (fun _ => []) (fun _ _ _ _ _ => .rejects .nullish) (fun _ => none)
        (some (js "/status")) climbing = some file →
      ∃ dir, some (js "/status") = some dir ∧ Contained dir file := by
  intro h
  have hread : statusRead Numerals.exact UrlParser.origin (fun _ => []) (fun _ _ _ _ _ => .rejects .nullish)
      (fun _ => none) (some (js "/status")) climbing = some (js "/status/schema.json") := by
    decide +kernel
  obtain ⟨dir, hdir, -, hups, x, hnames⟩ := h _ hread
  rw [← Option.some.inj hdir] at hnames
  have hfile : (normal (js "/status/schema.json")).names.length = 2 := by decide +kernel
  have hservices : (normal (servicesDir (js "/status"))).names.length = 2 := by decide +kernel
  have hlength := congrArg List.length hnames
  rw [List.length_append, hfile, hservices] at hlength
  cases hlength

end StatusSocket

end Wanfw.Orchestrator
