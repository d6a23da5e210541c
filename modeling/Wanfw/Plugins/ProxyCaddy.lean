import Wanfw.Config.Blocks
import Wanfw.Js.JsonText
import Wanfw.Orchestrator.CertNames
import Wanfw.Orchestrator.Volumes

/-!
# The proxy configuration

`plugins/proxy-caddy`: the proxy engine answers `proxy.render` with a Caddyfile, one site block
for each route and two that answer anything else. The blocks are filled in with the texts of the
documents, and the schema asks of a hostname that it is not empty, no more.

`renderTask_reads_back`: read by the rules of `Wanfw.Config.Blocks`, the file has the sites that
the service documents declare, each with its hostname as its only address, exactly when the
hostnames are plain words, no two the same and none that of a catch-all.

These rules are not Caddy's own, which are not part of the repository. They read a block only where
each word stands for itself. Caddy takes more than that (`a#b` is a word to it), and refuses or
joins some of what is read here: it compares the hosts of two sites without regard to case, and has
a meaning of its own for an address such as `@name` or one with a scheme, a port or a path.
-/

namespace Wanfw.Plugins.ProxyCaddy

open Wanfw.Js Wanfw.Config Wanfw.Orchestrator

/-! ### The plugin -/

/-- `CertPaths`. -/
structure CertPaths where
  certPath : JsString
  keyPath : JsString

/-- `backendHost`. -/
def backendHost (serviceId : JsString) : JsString := js "wanfw_" ++ serviceId

/-- `tlsDirective`. -/
def tlsDirective : Option CertPaths → JsString
  | some cert => js "\ttls " ++ cert.certPath ++ js " " ++ cert.keyPath
  | none => js "\ttls internal"

/-- `siteBlock`. -/
def siteBlock (route : RouteEntry) (cert : Option CertPaths) : JsString :=
  join [route.hostname ++ js " \x7b", tlsDirective cert,
    js "\treverse_proxy " ++ route.backendProtocol ++ js "://" ++ backendHost route.serviceId ++
      js ":" ++ numberToString route.backendPort,
    js "\x7d"] (js "\n")

/-- `renderTask`. -/
def renderTask (routes : List RouteEntry) (cert : Option CertPaths) : ProxyRender where
  filename := some (js "Caddyfile")
  content :=
    let siteBlocks := routes.map fun route => siteBlock route cert
    let catchAll443 := join [js ":443 \x7b", tlsDirective cert, js "\trespond 404", js "\x7d"] (js "\n")
    let catchAll80 := join [js ":80 \x7b", js "\trespond 404", js "\x7d"] (js "\n")
    some (join (siteBlocks ++ [catchAll443, catchAll80]) (js "\n\n") ++ js "\n")
  reloadCmd := some [js "caddy", js "reload", js "--config", js "/etc/caddy/Caddyfile"]

/-! ### The sites -/

/-- The words of the `tls` directive. -/
def tlsWords : Option CertPaths → List JsString
  | some cert => [js "tls", cert.certPath, cert.keyPath]
  | none => [js "tls", js "internal"]

/-- Where the requests of a route go. -/
def upstream (route : RouteEntry) : JsString :=
  route.backendProtocol ++ js "://" ++ backendHost route.serviceId ++ js ":" ++ numberToString route.backendPort

/-- The site of a route. -/
def siteOf (cert : Option CertPaths) (route : RouteEntry) : Site :=
  ⟨[route.hostname], [tlsWords cert, [js "reverse_proxy", upstream route]]⟩

/-- The sites that answer what no other site answers. -/
def catchAlls (cert : Option CertPaths) : List Site :=
  [⟨[js ":443"], [tlsWords cert, [js "respond", js "404"]]⟩, ⟨[js ":80"], [[js "respond", js "404"]]⟩]

/-- The site that a service document declares. -/
def declaredSite (cert : Option CertPaths) (s : Service) : Option Site :=
  s.expose.map fun expose => siteOf cert ⟨s.id, expose.hostname, expose.backendPort, expose.backendProtocol⟩

section Sites

variable {cert : Option CertPaths} {route : RouteEntry} {routes : List RouteEntry}

theorem tlsDirective_eq (cert : Option CertPaths) : tlsDirective cert = 9 :: join (tlsWords cert) [32] := by
  cases cert with
  | none => decide
  | some cert => simp [tlsDirective, tlsWords, join, List.intercalate, js, encode, utf16]

theorem siteBlock_eq (route : RouteEntry) (cert : Option CertPaths) :
    siteBlock route cert = (siteOf cert route).text := by
  rw [siteBlock, tlsDirective_eq, Site.text, Site.lines, siteOf, upstream]
  simp [join, List.intercalate, js, encode, utf16, closeBrace]

/-- The file is what the writer writes of the sites. -/
theorem renderTask_content (routes : List RouteEntry) (cert : Option CertPaths) :
    (renderTask routes cert).content = some (write (routes.map (siteOf cert) ++ catchAlls cert)) := by
  have hcatch : (catchAlls cert).map Site.text =
      [join [js ":443 \x7b", tlsDirective cert, js "\trespond 404", js "\x7d"] (js "\n"),
        join [js ":80 \x7b", js "\trespond 404", js "\x7d"] (js "\n")] := by
    rw [tlsDirective_eq]
    rfl
  rw [write, List.map_append, hcatch, List.map_map]
  show some (join (routes.map (fun route => siteBlock route cert) ++ _) _ ++ _) = _
  rw [List.map_congr_left fun route _ => siteBlock_eq route cert]
  rfl

/-! ### Plain texts -/

theorem not_isSpecial_of_all {w : JsString} (h : (w.all fun u => !isSpecial u) = true) :
    ∀ u ∈ w, isSpecial u = false := by
  simpa using h

theorem isSpecial_numeral {u : UInt16} (h : IsNumeral u) : isSpecial u = false := by
  have hspecial : ∀ v ∈ [34, 35, 38, 40, 41, 44, 60, 92, 96, 123, 125, 133], ¬ IsNumeral v := by
    simp [IsNumeral, IsDigit]
  rw [isSpecial, isSpace_numeral h, Bool.false_or, Bool.eq_false_iff, Ne, List.contains_iff_mem]
  exact fun hmem => hspecial u hmem h

theorem isSpecial_idUnit {u : UInt16} (h : isIdUnit u = true) : isSpecial u = false := by
  have hcode : ∀ n : ℕ, n < 123 → isIdUnit n.toUInt16 = true → isSpecial n.toUInt16 = false := by
    decide +kernel
  have hlt : u.toNat < 123 := by
    simp only [isIdUnit, isAlnum, isLower, isDigit, Bool.or_eq_true, Bool.and_eq_true,
      decide_eq_true_iff, beq_iff_eq] at h
    rcases h with (h | h) | rfl
    · omega
    · omega
    · decide
  have hu := hcode u.toNat hlt
  rw [show u.toNat.toUInt16 = u from UInt16.ofNat_toNat] at hu
  exact hu h

/-- What the schemas require of the document: the id fits the envelope pattern, and the protocol is
one of two. -/
structure Admitted (s : Service) : Prop where
  id : validId s.id = true
  protocol : ∀ expose, s.expose = some expose →
    expose.backendProtocol = js "http" ∨ expose.backendProtocol = js "https"

theorem isPlain_upstream (hid : validId route.serviceId = true)
    (hprotocol : route.backendProtocol = js "http" ∨ route.backendProtocol = js "https") :
    isPlain (upstream route) = true := by
  have hproto : ∀ u ∈ route.backendProtocol, isSpecial u = false := by
    rcases hprotocol with h | h <;> rw [h] <;> exact not_isSpecial_of_all (by decide)
  have hcolon : (58 : UInt16) ∈ upstream route := by simp [upstream, js, encode, utf16]
  refine isPlain_iff.mpr ⟨List.ne_nil_of_mem hcolon, fun himport => ?_, fun u hu => ?_⟩
  · rw [himport] at hcolon
    exact absurd hcolon (by decide)
  · simp only [upstream, backendHost, List.mem_append] at hu
    rcases hu with (((hu | hu) | (hu | hu)) | hu) | hu
    · exact hproto u hu
    · exact not_isSpecial_of_all (w := js "://") (by decide) u hu
    · exact not_isSpecial_of_all (w := js "wanfw_") (by decide) u hu
    · exact isSpecial_idUnit (validId_all hid u hu)
    · exact not_isSpecial_of_all (w := js ":") (by decide) u hu
    · exact isSpecial_numeral (isNumeral_numberToString _ u hu)

theorem plain_tlsWords (hcert : ∀ c ∈ cert, isPlain c.certPath = true ∧ isPlain c.keyPath = true) :
    ∀ w ∈ tlsWords cert, isPlain w = true := by
  cases cert with
  | none => decide +kernel
  | some c =>
    obtain ⟨hpath, hkey⟩ := hcert c rfl
    intro w hw
    simp only [tlsWords, List.mem_cons, List.not_mem_nil, or_false] at hw
    rcases hw with rfl | rfl | rfl
    · decide +kernel
    · exact hpath
    · exact hkey

theorem tlsWords_ne_nil (cert : Option CertPaths) : tlsWords cert ≠ [] := by
  cases cert <;> exact List.cons_ne_nil _ _

/-- The site of a route is plain when its hostname is. -/
theorem plain_siteOf (hcert : ∀ c ∈ cert, isPlain c.certPath = true ∧ isPlain c.keyPath = true)
    (hhost : isPlain route.hostname = true) (hup : isPlain (upstream route) = true) :
    (siteOf cert route).Plain where
  addresses_ne_nil := List.cons_ne_nil _ _
  addresses := by simpa [siteOf] using hhost
  directive_ne_nil := by simp [siteOf, tlsWords_ne_nil]
  directives := by
    have hword : isPlain (js "reverse_proxy") = true := by decide +kernel
    simp only [siteOf, List.forall_mem_cons, List.not_mem_nil, IsEmpty.forall_iff, implies_true, and_true]
    exact ⟨plain_tlsWords hcert, hword, hup⟩

theorem plain_catchAlls (hcert : ∀ c ∈ cert, isPlain c.certPath = true ∧ isPlain c.keyPath = true) :
    ∀ s ∈ catchAlls cert, s.Plain := by
  have hrespond : ∀ w ∈ [js "respond", js "404"], isPlain w = true := by decide +kernel
  have h443 : isPlain (js ":443") = true := by decide +kernel
  have h80 : isPlain (js ":80") = true := by decide +kernel
  rw [catchAlls, List.forall_mem_cons, List.forall_mem_singleton]
  refine ⟨⟨List.cons_ne_nil _ _, by simpa using h443, by simp [tlsWords_ne_nil], ?_⟩,
    ⟨List.cons_ne_nil _ _, by simpa using h80, by simp, ?_⟩⟩
  · simp only [List.forall_mem_cons, List.not_mem_nil, IsEmpty.forall_iff, implies_true, and_true] at hrespond ⊢
    exact ⟨plain_tlsWords hcert, hrespond⟩
  · simpa using hrespond

end Sites

/-! ### What PLAN makes of the documents -/

/-- The hostnames of the services. -/
def hostnames (ds : DesiredState) : List JsString :=
  ds.services.filterMap fun s => s.expose.map (·.hostname)

/-- Hostnames that each stand for a site of their own. -/
structure Separable (hostnames : List JsString) : Prop where
  plain : ∀ hostname ∈ hostnames, isPlain hostname = true
  /-- No two are the same, and none is the address of a catch-all. -/
  nodup : (hostnames ++ [js ":443", js ":80"]).Nodup

section Plan

variable {env : Env} {ds : DesiredState} {framework : Framework} {g : PlanGraph}
  {cert : Option CertPaths} {engine : JsString}

theorem declaredSite_eq_of_planEntry {s : Service} {e : PlanEntry} (h : planEntry env s = some e) :
    declaredSite cert s = some (siteOf cert e.route) := by
  unfold planEntry at h
  split at h
  · rename_i expose _ hexpose
    obtain ⟨plan, -, rfl⟩ := Option.map_eq_some_iff.mp h
    rw [declaredSite, hexpose]
    rfl
  · cases h

/-- The bound engine renders the routes of the services, each once. -/
theorem routes_of_planOf (hplan : planOf env ds framework = .ok (.ok g))
    (hengine : truthy (Obj.get framework.roles (js "proxyEngine")) = some engine)
    (hrender : ∀ routes, env.proxyRender engine routes = .ok (some (renderTask routes cert))) :
    ∃ routes, g.proxyRender = some (renderTask routes cert) ∧
      (∀ route ∈ routes, ∃ s ∈ ds.services, ∃ expose, s.expose = some expose ∧
        route = ⟨s.id, expose.hostname, expose.backendPort, expose.backendProtocol⟩) ∧
      (routes.map (siteOf cert)).Perm (ds.services.filterMap (declaredSite cert)) := by
  obtain ⟨net, -, hall, hproxy⟩ := planOf_iff.mp hplan
  obtain ⟨-, -, -, hroutes, -⟩ :=
    (PlanGraph.empty net).addAll_spec (ds.services.filterMap (planEntry env))
  have hsorted : (((PlanGraph.empty net).addAll (ds.services.filterMap (planEntry env))).finish env).routes.Perm
      ((ds.services.filterMap (planEntry env)).map PlanEntry.route) := by
    rw [PlanGraph.finish, hroutes, PlanGraph.empty, List.nil_append]
    exact sortBy_perm _ _
  simp only [planProxy, hengine, hrender] at hproxy
  cases hproxy
  refine ⟨_, rfl, fun route hroute => ?_, ?_⟩
  · obtain ⟨e, he, rfl⟩ := List.mem_map.mp (hsorted.mem_iff.mp hroute)
    obtain ⟨s, hs, hentry⟩ := List.mem_filterMap.mp he
    unfold planEntry at hentry
    split at hentry
    · rename_i expose _ hexpose
      obtain ⟨plan, -, rfl⟩ := Option.map_eq_some_iff.mp hentry
      exact ⟨s, hs, expose, hexpose, rfl⟩
    · cases hentry
  · refine (hsorted.map (siteOf cert)).trans (List.Perm.of_eq ?_)
    rw [List.map_map, List.map_filterMap]
    refine List.filterMap_congr fun s hs => ?_
    obtain ⟨e, he⟩ := Option.isSome_iff_exists.mp (hall s hs)
    rw [he, declaredSite_eq_of_planEntry he]
    rfl

theorem addresses_declared (cert : Option CertPaths) (ds : DesiredState) :
    (ds.services.filterMap (declaredSite cert)).flatMap (·.addresses) = hostnames ds := by
  rw [hostnames]
  induction ds.services with
  | nil => rfl
  | cons s services ih =>
    cases hexpose : s.expose with
    | none => simpa [declaredSite, hexpose] using ih
    | some expose => simpa [declaredSite, hexpose, siteOf] using ih

/-- The addresses of the file are the hostnames, and those of the catch-alls. -/
theorem addresses_perm {sites : List Site}
    (h : sites.Perm (ds.services.filterMap (declaredSite cert))) :
    ((sites ++ catchAlls cert).flatMap (·.addresses)).Perm (hostnames ds ++ [js ":443", js ":80"]) := by
  rw [List.flatMap_append, ← addresses_declared cert]
  exact (h.flatMap_right _).append_right _

/-- **The proxy configuration declares what the documents declare** exactly when the hostnames are
separable: the file that PLAN takes from the proxy engine, read by the rules of `Config.read`, has a
site for each service document, with its hostname as its only address and the requests going to its
container and port, then the two catch-alls, and nothing else. -/
theorem renderTask_reads_back (hplan : planOf env ds framework = .ok (.ok g))
    (hengine : truthy (Obj.get framework.roles (js "proxyEngine")) = some engine)
    (hrender : ∀ routes, env.proxyRender engine routes = .ok (some (renderTask routes cert)))
    (hservices : ∀ s ∈ ds.services, Admitted s)
    (hcert : ∀ c ∈ cert, isPlain c.certPath = true ∧ isPlain c.keyPath = true) :
    ∃ content, g.proxyRender.bind (·.content) = some content ∧
      ((∃ sites, read content = some (sites ++ catchAlls cert) ∧
          sites.Perm (ds.services.filterMap (declaredSite cert))) ↔
        Separable (hostnames ds)) := by
  obtain ⟨routes, hg, hmem, hperm⟩ := routes_of_planOf hplan hengine hrender
  refine ⟨_, by rw [hg, Option.bind_some, renderTask_content], ⟨?_, fun h => ⟨_, ?_, hperm⟩⟩⟩
  · rintro ⟨sites, hread, hsites⟩
    obtain ⟨hplain, hnodup⟩ := read_sound hread
    refine ⟨fun hostname hhost => ?_, (addresses_perm hsites).nodup_iff.mp hnodup⟩
    rw [← addresses_declared cert] at hhost
    obtain ⟨site, hsite, haddress⟩ := List.mem_flatMap.mp hhost
    exact (hplain site (List.mem_append_left _ (hsites.mem_iff.mpr hsite))).addresses hostname haddress
  · refine read_write (List.forall_mem_append.mpr ⟨?_, plain_catchAlls hcert⟩)
      ((addresses_perm hperm).nodup_iff.mpr h.nodup)
    intro site hsite
    obtain ⟨route, hroute, rfl⟩ := List.mem_map.mp hsite
    obtain ⟨s, hs, expose, hexpose, rfl⟩ := hmem route hroute
    have hadmitted := hservices s hs
    refine plain_siteOf hcert (h.plain _ ?_) (isPlain_upstream hadmitted.id (hadmitted.protocol expose hexpose))
    exact List.mem_filterMap.mpr ⟨s, hs, by rw [hexpose]; rfl⟩

/-! ### Two services -/

/-- The framework document that binds the proxy engine. -/
def caddyFramework : Framework := ⟨some (js "lan"), [(js "proxyEngine", js "proxy-caddy")], none, none⟩

/-- A service document for this hostname and port. -/
def caddyService (id hostname : JsString) (port : Decimal) (protocol : JsString) : Service :=
  ⟨id, some (js "deploy-docker"), some ⟨hostname, port, protocol, none⟩, .null, none⟩

/-- The documents of two services, one of which is reached over TLS. -/
def caddyDocuments : DesiredState where
  framework := some caddyFramework
  services :=
    [caddyService (js "media") (js "media.lan") 8096 (js "http"),
      caddyService (js "cloud") (js "cloud.lan") 8443 (js "https")]
  errors := []
  nodup := by decide +kernel

/-- A run whose proxy engine answers, with no certificate stored. -/
def caddyRun : Env := { hostRun with proxyRender := fun _ routes => .ok (some (renderTask routes none)) }

/-- The graph of that run, before its configuration is rendered. -/
def caddyPlan : PlanGraph :=
  ((PlanGraph.empty none).addAll (caddyDocuments.services.filterMap (planEntry caddyRun))).finish caddyRun

/-- The graph of that run. -/
def caddyGraph : PlanGraph := { caddyPlan with proxyRender := some (renderTask caddyPlan.routes none) }

/-- The sites that the two documents declare. -/
def caddySites : List Site :=
  [⟨[js "media.lan"], [[js "tls", js "internal"], [js "reverse_proxy", js "http://wanfw_media:8096"]]⟩,
    ⟨[js "cloud.lan"], [[js "tls", js "internal"], [js "reverse_proxy", js "https://wanfw_cloud:8443"]]⟩]

/-- The file for services at `media.lan` and `cloud.lan` has their two sites, and the catch-alls. -/
theorem renderTask_reads_back_media :
    planOf caddyRun caddyDocuments caddyFramework = .ok (.ok caddyGraph) ∧
      ∃ content, caddyGraph.proxyRender.bind (·.content) = some content ∧
        ∃ sites, read content = some (sites ++ catchAlls none) ∧ sites.Perm caddySites := by
  have hplan : planOf caddyRun caddyDocuments caddyFramework = .ok (.ok caddyGraph) := rfl
  have hengine : truthy (Obj.get caddyFramework.roles (js "proxyEngine")) = some (js "proxy-caddy") := by decide
  have hdeclared : caddyDocuments.services.filterMap (declaredSite none) = caddySites := by decide +kernel
  have hadmitted : ∀ s ∈ caddyDocuments.services, Admitted s := by
    simp only [caddyDocuments, List.forall_mem_cons, List.not_mem_nil, IsEmpty.forall_iff, implies_true, and_true]
    refine ⟨⟨by decide +kernel, fun expose hexpose => ?_⟩, ⟨by decide +kernel, fun expose hexpose => ?_⟩⟩
    · cases hexpose
      exact .inl rfl
    · cases hexpose
      exact .inr rfl
  have hseparable : Separable (hostnames caddyDocuments) := ⟨by decide +kernel, by decide +kernel⟩
  obtain ⟨content, hcontent, hiff⟩ := renderTask_reads_back hplan hengine (fun _ => rfl) hadmitted (by simp)
  rw [hdeclared] at hiff
  exact ⟨hplan, content, hcontent, hiff.mpr hseparable⟩

end Plan

end Wanfw.Plugins.ProxyCaddy
