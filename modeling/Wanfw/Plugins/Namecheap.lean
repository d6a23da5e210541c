import Wanfw.Js.Act
import Wanfw.Js.Numbers
import Wanfw.Js.Regex

/-!
# The Namecheap plugin

`plugins/dns-namecheap`: `namecheap-client.ts` and `apply.ts`. Namecheap has no call
that changes a single record: a change reads all the records of a domain, merges in
memory and writes all of them back. The answers are XML, read with regular
expressions.

Requests go through a parameter `fetch`; `Net` is the list of requests that were
sent, for a server whose answers may depend on all of them.
-/

namespace Wanfw.Plugins.Namecheap

open Wanfw.Js

/-! ### Data -/

/-- `NamecheapConfig`. -/
structure NamecheapConfig where
  apiUser : JsString
  apiKey : JsString
  username : JsString
  clientIp : JsString
  baseUrl : Option JsString

/-- `DnsHost`. -/
structure DnsHost where
  type : JsString
  name : JsString
  address : JsString
  ttl : JsString
  deriving DecidableEq

/-- `DnsApplyInput["action"]`. -/
inductive DnsAction where
  | set
  | delete
  deriving DecidableEq

/-- `DnsApplyInput["record"]`. -/
structure DnsRecord where
  type : JsString
  name : JsString
  value : JsString
  ttl : Option Decimal

/-- `DnsApplyInput`. -/
structure DnsApplyInput where
  zone : JsString
  action : DnsAction
  record : DnsRecord

/-- A request: the base URL and the query parameters. -/
structure Request where
  url : JsString
  params : List (JsString × JsString)

/-- What `fetchFn` resolves to. -/
structure Response where
  ok : Bool
  status : ℕ
  text : JsString

/-! ### Zones and names -/

/-- `splitZone`. -/
def splitZone (zone : JsString) : Except JsError (JsString × JsString) :=
  let parts := split zone 46
  if parts.length < 2 then
    .error (.error (js "invalid zone '" ++ zone ++ js "': expected at least 'sld.tld'"))
  else .ok (join parts.dropLast (js "."), parts.getLastD [])

/-- `registrableZone`: the last two labels. -/
def registrableZone (zone : JsString) : JsString :=
  let parts := split zone 46
  if parts.length ≤ 2 then zone else join (parts.drop (parts.length - 2)) (js ".")

/-- `recordKey`. -/
def recordKey (type name : JsString) : JsString := type ++ js ":" ++ name

/-- `relativeToZone`. -/
def relativeToZone (name zone : JsString) : JsString :=
  if name = zone then js "@"
  else if endsWith name (js "." ++ zone) then name.take (name.length - (js "." ++ zone).length)
  else name

/-! ### Reading XML -/

/-- `/<Errors>([\s\S]*?)<\/Errors>/`. -/
def errorBlockRe : Re := .between (js "<Errors>") (js "</Errors>")

/-- `/<Error(?:\s+Number="([^"]*)")?[^>]*>([\s\S]*?)<\/Error>/g`. -/
def errorTagRe : Re :=
  .seqs [.lit (js "<Error"),
    .opt (.seqs [.plus isSpace, .lit (js "Number=\""), .group 1 (.star true (· != 34)), .lit (js "\"")]),
    .star true (· != 62), .lit (js ">"), .group 2 (.star false fun _ => true), .lit (js "</Error>")]

/-- `extractErrors`: numbers and messages. -/
def extractErrors (xml : JsString) : List (Option JsString × JsString) :=
  match (errorBlockRe.exec xml).bind (·.group 1) with
  | none => []
  | some block => (errorTagRe.scan block).map fun m => (m.group 1, trim ((m.group 2).getD []))

/-- `IP_ALLOWLIST_ERROR_NUMBERS`. -/
def ipAllowlistErrorNumbers : List JsString := [js "1011150", js "1010900"]

/-- `checkErrors`. -/
def checkErrors (xml : JsString) : Except JsError Unit :=
  match extractErrors xml with
  | [] => .ok ()
  | errors =>
    let messages := join (errors.map (·.2)) (js "; ")
    if errors.any fun e => e.1.any fun number => number ∈ ipAllowlistErrorNumbers then
      .error (.error (js "Namecheap API refused the request -- add this host's WAN IP to the Namecheap API allowlist " ++
        js "(https://ap.www.namecheap.com/settings/tools/apiaccess/). Underlying error: " ++ messages))
    else .error (.error (js "Namecheap API error: " ++ messages))

/-- `/<host\s+([^/>]*)\/?>/gi`. -/
def hostTagRe : Re :=
  .seqs [.litI (js "<host"), .plus isSpace, .group 1 (.star true fun u => u != 47 && u != 62), .opt (.lit (js "/")),
    .lit (js ">")]

/-- `new RegExp(attr + '="([^"]*)"', "i")`. -/
def attrRe (attr : JsString) : Re :=
  .seqs [.litI (attr ++ js "=\""), .group 1 (.star true (· != 34)), .lit (js "\"")]

/-- `get(attr)`: the value of an attribute, or the empty string. -/
def getAttr (attrs attr : JsString) : JsString := (((attrRe attr).exec attrs).bind (·.group 1)).getD []

/-- The record that the attributes of a `host` element describe. -/
def hostOfAttrs (attrs : JsString) : DnsHost where
  type := getAttr attrs (js "Type")
  name := getAttr attrs (js "Name")
  address := getAttr attrs (js "Address")
  ttl := match getAttr attrs (js "TTL") with
    | [] => js "1800"
    | ttl => ttl

/-- `parseHosts`. -/
def parseHosts (xml : JsString) : List DnsHost := (hostTagRe.scan xml).map fun m => hostOfAttrs ((m.group 1).getD [])

/-! ### Requests -/

/-- `params.set(k, v)`. -/
def setParam (params : List (JsString × JsString)) (k v : JsString) : List (JsString × JsString) :=
  if params.any fun p => p.1 == k then
    params.takeWhile (fun p => p.1 != k) ++ (k, v) :: (params.dropWhile (fun p => p.1 != k)).tail.filter fun p => p.1 != k
  else params ++ [(k, v)]

/-- `baseParams`. -/
def baseParams (config : NamecheapConfig) : List (JsString × JsString) :=
  [(js "ApiUser", config.apiUser), (js "ApiKey", config.apiKey), (js "UserName", config.username),
    (js "ClientIp", config.clientIp)]

/-- The parameters of a command for a domain. -/
def commandParams (config : NamecheapConfig) (command sld tld : JsString) : List (JsString × JsString) :=
  setParam (setParam (setParam (baseParams config) (js "Command") command) (js "SLD") sld) (js "TLD") tld

/-- `config.baseUrl ?? …`. -/
def NamecheapConfig.endpoint (config : NamecheapConfig) : JsString :=
  config.baseUrl.getD (js "https://api.namecheap.com/xml.response")

/-- The request of `getHosts`. -/
def getHostsRequest (config : NamecheapConfig) (sld tld : JsString) : Request where
  url := config.endpoint
  params := commandParams config (js "namecheap.domains.dns.getHosts") sld tld

/-- The parameters of the records, numbered from 1. -/
def hostParams (params : List (JsString × JsString)) (hosts : List DnsHost) : List (JsString × JsString) :=
  hosts.zipIdx.foldl (fun ps e =>
    let n := natToString (e.2 + 1)
    setParam (setParam (setParam (setParam ps (js "HostName" ++ n) e.1.name) (js "RecordType" ++ n) e.1.type)
      (js "Address" ++ n) e.1.address) (js "TTL" ++ n) e.1.ttl) params

/-- The request of `setHosts`. -/
def setHostsRequest (config : NamecheapConfig) (sld tld : JsString) (hosts : List DnsHost) : Request where
  url := config.endpoint
  params := hostParams (commandParams config (js "namecheap.domains.dns.setHosts") sld tld) hosts

section Client

variable {σ : Type} (fetch : Request → Act σ Response) (config : NamecheapConfig)

/-- `getHosts`. -/
def getHosts (zone : JsString) : Act σ (List DnsHost) := do
  let (sld, tld) ← Act.ofExcept (splitZone zone)
  let res ← fetch (getHostsRequest config sld tld)
  Act.ofExcept (checkErrors res.text)
  return parseHosts res.text

/-- `setHosts`. -/
def setHosts (zone : JsString) (hosts : List DnsHost) : Act σ Unit := do
  let (sld, tld) ← Act.ofExcept (splitZone zone)
  let res ← fetch (setHostsRequest config sld tld hosts)
  Act.ofExcept (checkErrors res.text)

/-- The name of the record, relative to the domain. -/
def DnsApplyInput.relativeName (input : DnsApplyInput) : JsString :=
  relativeToZone input.record.name (registrableZone input.zone)

/-- The key of the record. -/
def DnsApplyInput.key (input : DnsApplyInput) : JsString := recordKey input.record.type input.relativeName

/-- The record to be set. -/
def DnsApplyInput.host (input : DnsApplyInput) : DnsHost where
  type := input.record.type
  name := input.relativeName
  address := input.record.value
  ttl := numberToString (input.record.ttl.getD 300)

/-- The records to be written, for those that were read. -/
def nextHosts (input : DnsApplyInput) (existing : List DnsHost) : List DnsHost :=
  let withoutMatching := existing.filter fun h => recordKey h.type h.name != input.key
  match input.action with
  | .delete => withoutMatching
  | .set => withoutMatching ++ [input.host]

/-- `applyDnsRecord`. -/
def applyDnsRecord (input : DnsApplyInput) : Act σ Unit := do
  let zone := registrableZone input.zone
  let existing ← getHosts fetch config zone
  setHosts fetch config zone (nextHosts input existing)

end Client

/-! ### The network -/

/-- The requests that were sent. -/
structure Net where
  sent : List Request

/-- A server: its answer to a request after others, or a failure of the connection. -/
abbrev Server := List Request → Request → Except JsError Response

/-- `fetchFn`, for a server. -/
def fetchFrom (server : Server) (request : Request) : Act Net Response := fun net =>
  (server net.sent request, ⟨net.sent ++ [request]⟩)

end Wanfw.Plugins.Namecheap
