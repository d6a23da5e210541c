import Wanfw.Orchestrator.HostApi
import Wanfw.Plugins.Namecheap.Errors

/-!
# Whose records a change reaches

A plugin asks the host for a change of a record, and the host looks for a grant that
names the zone. It looks at the zone alone: the name of the record is another argument.
This plugin takes the zone for the domain it is in (`registrableZone`) and the name of
the record relative to that domain, so that a grant for a part of a domain lets its
holder change the records of all of it.

`stays_in_scope_iff` says for which arguments every record that changes lies in a
granted zone.
-/

namespace Wanfw.Plugins.Namecheap

open Wanfw.Js Wanfw.Orchestrator

/-! ### Scopes -/

/-- The name of a record in the DNS; `@` is the domain itself. -/
def absoluteName (domain name : JsString) : JsString :=
  if name = js "@" then domain else name ++ js "." ++ domain

/-- A name of the zone or of a subdomain. -/
def InZone (name zone : JsString) : Prop := name = zone ∨ endsWith name (js "." ++ zone) = true

instance (name zone : JsString) : Decidable (InZone name zone) := inferInstanceAs (Decidable (_ ∨ _))

/-- A name of one of the zones. -/
def InScope (granted : List JsString) (name : JsString) : Prop := ∃ zone ∈ granted, InZone name zone

instance (granted : List JsString) (name : JsString) : Decidable (InScope granted name) :=
  inferInstanceAs (Decidable (∃ zone ∈ granted, InZone name zone))

/-- The text of a value that is a string. -/
def jsonText : Json → Option JsString
  | .str s => some s
  | _ => none

/-- `scope.zones`, if it is an array of strings. -/
def scopeZones (scope : Json) : Option (List JsString) :=
  match scope.prop (js "zones") with
  | some (.arr xs) => xs.mapM jsonText
  | _ => none

/-- The zones of a row. -/
def rowZones (row : GrantRow) : List JsString :=
  if row.cap = js "dns.record.write" then (row.scope.bind scopeZones).getD [] else []

/-- The zones of all the grants. -/
def grantedZones (rows : List GrantRow) : List JsString := rows.flatMap rowZones

/-- Rows as they are written: every scope is JSON, and the zones are arrays of strings. -/
def ZonesTyped (rows : List GrantRow) : Prop :=
  ∀ row ∈ rows, ∃ scope, row.scope = some scope ∧ (row.cap = js "dns.record.write" → (scopeZones scope).isSome)

/-! ### A call -/

/-- The record of an input, as it is sent. -/
def DnsRecord.json (record : DnsRecord) : Json :=
  .obj (Value.object [(js "type", some (.str record.type)), (js "name", some (.str record.name)),
    (js "value", some (.str record.value)), (js "ttl", record.ttl.map Json.num)])

/-- The name of an action. -/
def DnsAction.text : DnsAction → JsString
  | .set => js "set"
  | .delete => js "delete"

/-- The arguments of the call. -/
def DnsApplyInput.args (input : DnsApplyInput) : Value :=
  some (.obj [(js "zone", .str input.zone), (js "record", input.record.json)])

/-- The parameters of the task `dns.apply`. -/
def DnsApplyInput.payload (input : DnsApplyInput) : Obj Json :=
  [(js "zone", .str input.zone), (js "action", .str input.action.text), (js "record", input.record.json)]

/-- The method for an action. -/
def dnsMethod {ρ : Type} (deps : HostDeps ρ) : DnsAction → Handler ρ
  | .set => dnsSetRecord deps
  | .delete => dnsDeleteRecord deps

/-- This plugin is the one that changes records, and runs `applyDnsRecord`. -/
structure Bound (deps : HostDeps Net) (server : Server) (config : NamecheapConfig) : Prop where
  provider : ∀ net, deps.dnsProvider net = (.ok (some (js "dns-namecheap")), net)
  invoke : ∀ (input : DnsApplyInput) (net : Net),
    deps.pluginInvoker (js "dns-namecheap") (js "dns.apply") input.payload net =
      ((match (applyDnsRecord (fetchFrom server) config input net).1 with
        | .ok _ => .ok (.ok (some (.obj [])))
        | .error e => .ok (.error (some e.message))),
        (applyDnsRecord (fetchFrom server) config input net).2)

/-- Every record that a write changes, against what the client read in the answer, lies in a granted zone. -/
def StaysInScope (rows : PluginRows) (input : DnsApplyInput) : Prop :=
  ∀ (deps : HostDeps Net) (server : Server) (config : NamecheapConfig) (id : JsString) (s : HostState Net),
    Bound deps server config → s.rows id = rows →
      ∀ new, (dnsMethod deps input.action (some (.str id)) input.args s).2.rest.sent = s.rest.sent ++ new →
        ∀ sld tld hosts, setHostsRequest config sld tld hosts ∈ new →
          ∀ response, server s.rest.sent (getHostsRequest config sld tld) = .ok response →
            ∀ h, (parseHosts response.text).count h ≠ hosts.count h →
              InScope (grantedZones rows.grants) (absoluteName (sld ++ js "." ++ tld) h.name)

/-! ### What the host checks -/

section Broker

variable {deps : HostDeps Net} {server : Server} {config : NamecheapConfig} {id : JsString} {s : HostState Net}
  {input : DnsApplyInput} {rows : List GrantRow}

theorem mapM_jsonText {xs : List Json} {texts : List JsString} (h : xs.mapM jsonText = some texts) :
    xs = texts.map Json.str := by
  induction xs generalizing texts with
  | nil =>
    cases h
    rfl
  | cons x xs ih =>
    rw [List.mapM_cons] at h
    obtain ⟨z, hz, h⟩ := Option.bind_eq_some_iff.mp h
    obtain ⟨zs, hzs, h⟩ := Option.bind_eq_some_iff.mp h
    cases h
    rw [List.map_cons, ← ih hzs]
    cases x with
    | str t =>
      cases hz
      rfl
    | _ => cases hz

theorem scopeZones_eq_some {scope : Json} {zones : List JsString} (h : scopeZones scope = some zones) :
    scope.prop (js "zones") = some (.arr (zones.map Json.str)) := by
  unfold scopeZones at h
  split at h
  · rename_i xs hprop
    rw [hprop, mapM_jsonText h]
  · cases h

/-- The check of one grant. -/
theorem matchZone_typed {scope : Json} {zones : List JsString} (h : scopeZones scope = some zones) (zone : JsString) :
    (do matchZoneValue (← scopeField scope (js "zones")) (some (.str zone))) =
      .ok (decide (js "*" ∈ zones ∨ zone ∈ zones)) := by
  have hprop := scopeZones_eq_some h
  have hfield : scopeField scope (js "zones") = .ok (.arr (zones.map Json.str)) := by
    cases scope with
    | obj o => simp [scopeField, hprop]
    | _ => cases hprop
  have hincludes : ∀ z : JsString, includesValue (.arr (zones.map Json.str)) (some (.str z)) = .ok (decide (z ∈ zones)) := by
    intro z
    rw [includesValue, List.any_map]
    congr 1
    rw [Bool.eq_iff_iff, List.any_eq_true, decide_eq_true_iff]
    constructor
    · rintro ⟨y, hy, heq⟩
      rwa [show z = y from by simpa [Value.strictEq, Json.strictEq] using heq]
    · intro hz
      exact ⟨z, hz, by simp [Value.strictEq, Json.strictEq]⟩
  rw [hfield]
  change matchZoneValue (.arr (zones.map Json.str)) (some (.str zone)) = _
  rw [matchZoneValue, hincludes, hincludes]
  by_cases hstar : js "*" ∈ zones
  · simp [hstar, bind, Except.bind, pure, Except.pure]
  · simp [hstar, bind, Except.bind]

theorem grantedZones_cons (row : GrantRow) : grantedZones (row :: rows) = rowZones row ++ grantedZones rows :=
  List.flatMap_cons

theorem hasGrant_cons (g : Grant) (grants : List Grant) (cap : JsString) (p : Json → Except JsError Bool) :
    hasGrant (g :: grants) cap p =
      match if g.cap = cap then p g.scope else .ok false with
      | .ok true => .ok true
      | .ok false => hasGrant grants cap p
      | .error e => .error e := rfl

/-- The check of all of them: whether the zone is one of those granted. -/
theorem hasGrant_typed (htyped : ZonesTyped rows) (hwild : js "*" ∉ grantedZones rows) (zone : JsString) :
    ∃ grants, (rows.mapM fun row => match row.scope with
        | some scope => Except.ok (⟨row.cap, scope⟩ : Grant)
        | none => .error (JsError.error (js "scope_json is not valid JSON"))) = .ok grants ∧
      hasGrant grants (js "dns.record.write") (fun scope => do
        matchZoneValue (← scopeField scope (js "zones")) (some (.str zone))) = .ok (decide (zone ∈ grantedZones rows)) := by
  induction rows with
  | nil => exact ⟨[], rfl, rfl⟩
  | cons row rows ih =>
    rw [grantedZones_cons, List.mem_append, not_or] at hwild
    obtain ⟨grants, hmap, hgrants⟩ := ih (fun r hr => htyped r (List.mem_cons_of_mem _ hr)) hwild.2
    obtain ⟨scope, hscope, hzones⟩ := htyped row List.mem_cons_self
    refine ⟨⟨row.cap, scope⟩ :: grants, ?_, ?_⟩
    · rw [List.mapM_cons, hmap, hscope]
      rfl
    · rw [hasGrant_cons, hgrants]
      by_cases hcap : row.cap = js "dns.record.write"
      · obtain ⟨zones, hz⟩ := Option.isSome_iff_exists.mp (hzones hcap)
        have hrow : rowZones row = zones := by rw [rowZones, if_pos hcap, hscope, Option.bind_some, hz]; rfl
        rw [hrow] at hwild
        rw [if_pos hcap, matchZone_typed hz, grantedZones_cons, hrow]
        by_cases hin : zone ∈ zones
        · simp [hin]
        · simp [hin, hwild.1]
      · have hrow : rowZones row = [] := by rw [rowZones, if_neg hcap]
        rw [if_neg hcap, grantedZones_cons, hrow]
        rfl

theorem deny_state {ρ α : Type} (parts : List (JsString × Value)) (last : JsString) (t : HostState ρ) :
    ((deny parts last : HostM ρ α) t).2 = t := by
  rw [deny, Act.bind_apply, Act.ofExcept]
  cases message parts last with
  | ok text => rfl
  | error e => rfl

/-- **What a call sends**: nothing if the zone is not granted, else what the change sends. -/
theorem sent_dnsMethod (hbound : Bound deps server config) (htyped : ZonesTyped (s.rows id).grants)
    (hwild : js "*" ∉ grantedZones (s.rows id).grants) :
    (dnsMethod deps input.action (some (.str id)) input.args s).2.rest =
      if input.zone ∈ grantedZones (s.rows id).grants then (applyDnsRecord (fetchFrom server) config input s.rest).2
      else s.rest := by
  obtain ⟨grants, hmap, hgrants⟩ := hasGrant_typed htyped hwild input.zone
  have hcheck : requireCap deps (some (.str id)) "dns.record.write" (fun scope => do
        matchZoneValue (← scopeField scope (js "zones")) (some (.str input.zone))) s =
      (.ok (decide (input.zone ∈ grantedZones (s.rows id).grants)), s) := by
    have hdecoded : decodedGrants deps (some (.str id)) s = (.ok grants, s) := by
      simp only [decodedGrants, rowsOf, deps.bind_str, Act.bind_apply, Act.ofExcept, Act.get, Act.pure_apply]
      exact congrArg (·, s) hmap
    rw [requireCap, Act.bind_apply, hdecoded]
    exact congrArg (·, s) hgrants
  have hzone : Value.destructure (js "args") (js "zone") input.args = .ok (some (.str input.zone)) := rfl
  have hrecord : Value.destructure (js "args") (js "record") input.args = .ok (some input.record.json) := rfl
  have hbroker : ∀ method action : String, js action = input.action.text →
      (brokerDnsApply deps method action (some (.str id)) input.args s).2.rest =
        if input.zone ∈ grantedZones (s.rows id).grants then (applyDnsRecord (fetchFrom server) config input s.rest).2
        else s.rest := by
    intro method action haction
    have hpayload : Value.object [(js "zone", some (.str input.zone)), (js "action", some (.str (js action))),
        (js "record", some input.record.json)] = input.payload := by
      rw [haction]
      rfl
    rw [brokerDnsApply, arg, hzone, Act.ofExcept_ok_bind, arg, hrecord, Act.ofExcept_ok_bind, Act.bind_apply, hcheck]
    by_cases hin : input.zone ∈ grantedZones (s.rows id).grants
    · simp only [hin, decide_true, if_true, Act.bind_apply, onRest, hbound.provider]
      rw [show truthy (some (js "dns-namecheap")) = some (js "dns-namecheap") by decide]
      simp only [Act.bind_apply, hpayload, onRest, hbound.invoke]
      cases (applyDnsRecord (fetchFrom server) config input s.rest).1 with
      | ok u => rfl
      | error e => rfl
    · simp only [hin, decide_false, if_false, Bool.false_eq_true]
      rw [deny_state]
  cases haction : input.action with
  | set => exact hbroker "dns.setRecord" "set" (by rw [haction]; rfl)
  | delete => exact hbroker "dns.deleteRecord" "delete" (by rw [haction]; rfl)

end Broker

/-! ### What a change changes -/

section Change

variable {input : DnsApplyInput} {existing : List DnsHost} {h : DnsHost}

/-- A record that changes has the key of the request, and was read or is the one to be set. -/
theorem changed_spec (hne : existing.count h ≠ (nextHosts input existing).count h) :
    recordKey h.type h.name = input.key ∧ (h ∈ existing ∨ input.action = .set ∧ h = input.host) := by
  have hhost : recordKey input.host.type input.host.name = input.key := rfl
  constructor
  · by_contra hkey
    have hkept : (existing.filter fun h => recordKey h.type h.name != input.key).count h = existing.count h :=
      List.count_filter (by simpa using hkey)
    apply hne
    rw [nextHosts]
    cases input.action with
    | delete => exact hkept.symm
    | set =>
      have hother : ([input.host] : List DnsHost).count h = 0 := by
        rw [List.count_eq_zero, List.mem_singleton]
        rintro rfl
        exact hkey hhost
      simp only [List.count_append, hkept, hother, Nat.add_zero]
  · by_contra hnone
    rw [not_or] at hnone
    apply hne
    have hkept : (existing.filter fun h => recordKey h.type h.name != input.key).count h = 0 :=
      List.count_eq_zero.mpr fun hmem => hnone.1 (List.mem_filter.mp hmem).1
    rw [List.count_eq_zero.mpr hnone.1, nextHosts]
    cases haction : input.action with
    | delete => exact hkept.symm
    | set =>
      have hother : ([input.host] : List DnsHost).count h = 0 := by
        rw [List.count_eq_zero, List.mem_singleton]
        exact fun heq => hnone.2 ⟨haction, heq⟩
      simp only [List.count_append, hkept, hother]

/-- A text that an attribute can have, as it is read. -/
def Readable (s : JsString) : Prop := 34 ∉ s ∧ ∀ u ∈ s, inTag u = true

theorem readable_getAttr {attrs attr : JsString} (hattrs : ∀ u ∈ attrs, inTag u = true) (hattr : 34 ∉ attr) :
    Readable (getAttr attrs attr) := by
  rw [getAttr_eq hattr]
  cases hv : quotedValue (attr ++ js "=") (split attrs 34) with
  | none => exact ⟨List.not_mem_nil, fun u hu => absurd hu List.not_mem_nil⟩
  | some v =>
    obtain ⟨hquote, hmem⟩ := mem_split (mem_of_quotedValue hv)
    exact ⟨hquote, fun u hu => hattrs u (hmem u hu)⟩

theorem readable_of_mem_parseHosts {xml : JsString} (hh : h ∈ parseHosts xml) : Readable h.type ∧ Readable h.name := by
  obtain ⟨m, hm, rfl⟩ := List.mem_map.mp hh
  obtain ⟨y, hrun⟩ := Re.mem_scan anchorless_hostTagRe hm
  obtain ⟨x, sp, a, e, -, -, -, -, ha, -, -, hgroup⟩ := mem_run_hostTagRe hrun
  rw [hgroup]
  exact ⟨readable_getAttr ha (by decide), readable_getAttr ha (by decide)⟩

theorem inTag_append {x y : JsString} (hx : ∀ u ∈ x, inTag u = true) (hy : ∀ u ∈ y, inTag u = true) :
    ∀ u ∈ x ++ y, inTag u = true := List.forall_mem_append.mpr ⟨hx, hy⟩

/-- An answer with a single tag reports no error: its only `>` stands behind a quote. -/
theorem reportsError_tag {a : JsString} (ha : ∀ u ∈ a, inTag u = true) :
    reportsError (js "<host " ++ (a ++ 34 :: js ">")) = false := by
  unfold reportsError
  cases hcut : cut (js "<Errors>") (js "<host " ++ (a ++ 34 :: js ">")) with
  | none => rfl
  | some q =>
    obtain ⟨x, y⟩ := q
    have heq : (js "<host " ++ a ++ [34]) ++ 62 :: [] = (x ++ js "<Errors") ++ 62 :: y := by
      have := eq_append_of_cut hcut
      simp only [js, encode, List.append_assoc] at this ⊢
      exact this
    have hbody : (62 : UInt16) ∉ js "<host " ++ a ++ [34] := by
      rw [List.mem_append, List.mem_append, not_or, not_or]
      exact ⟨⟨by decide, fun hmem => by simpa [inTag] using ha 62 hmem⟩, by decide⟩
    have hfront : (62 : UInt16) ∉ x ++ js "<Errors" := by
      have hcount := congrArg (List.count 62) heq
      rw [List.count_append, List.count_eq_zero.mpr hbody, List.count_append, List.count_cons_self, List.count_cons_self,
        List.count_nil] at hcount
      rw [← List.count_eq_zero]
      omega
    obtain ⟨hlast, -⟩ := append_cons_inj hbody hfront heq
    have := congrArg List.getLast? hlast
    rw [List.getLast?_append_of_ne_nil _ (by simp), List.getLast?_append_of_ne_nil _ (by decide)] at this
    exact absurd this (by decide)

/-- Every readable type and name can be read. -/
theorem exists_parseHosts {type name : JsString} (htype : Readable type) (hname : Readable name) :
    ∃ xml h, parseHosts xml = [h] ∧ h.type = type ∧ h.name = name ∧ reportsError xml = false := by
  -- where the type ends with `name=`, the quote behind it opens the name
  obtain ⟨mid, hmid, hvalue⟩ : ∃ mid : JsString, (∀ u ∈ mid, inTag u = true) ∧
      quotedValue (js "Name=") (type :: split (mid ++ (name ++ 34 :: [])) 34) = some name := by
    by_cases hend : endsWithI type (js "Name=") = true
    · refine ⟨[], by simp, ?_⟩
      rw [List.nil_append, split_append_cons hname.1, show split ([] : JsString) 34 = [[]] from rfl, quotedValue,
        if_pos hend]
    · refine ⟨js " Name=\"", List.all_eq_true.mp (by decide), ?_⟩
      rw [show js " Name=\"" ++ (name ++ 34 :: []) = js " Name=" ++ 34 :: (name ++ 34 :: []) from rfl,
        split_append_cons (by decide), split_append_cons hname.1, show split ([] : JsString) 34 = [[]] from rfl,
        quotedValue, if_neg hend, quotedValue, if_pos (by decide)]
  obtain ⟨a, hadef⟩ : ∃ a, a = js "Type=" ++ 34 :: (type ++ 34 :: (mid ++ name)) := ⟨_, rfl⟩
  have ha : ∀ u ∈ a, inTag u = true := by
    rw [hadef]
    refine inTag_append (List.all_eq_true.mp (by decide)) (List.forall_mem_cons.mpr ⟨by decide, inTag_append htype.2 ?_⟩)
    exact List.forall_mem_cons.mpr ⟨by decide, inTag_append hmid hname.2⟩
  have hquote : ∀ u ∈ a ++ [34], inTag u = true := inTag_append ha (List.all_eq_true.mp (by decide))
  have hsplit : split (a ++ [34]) 34 = js "Type=" :: type :: split (mid ++ (name ++ 34 :: [])) 34 := by
    have : a ++ [34] = js "Type=" ++ 34 :: (type ++ 34 :: (mid ++ (name ++ 34 :: []))) := by simp [hadef]
    rw [this, split_append_cons (by decide), split_append_cons htype.1]
  obtain ⟨w, rest, hw⟩ := List.exists_cons_of_ne_nil (List.splitOn_ne_nil 34 (mid ++ (name ++ 34 :: [])))
  refine ⟨js "<host " ++ (a ++ 34 :: js ">"), hostOfAttrs (a ++ [34]), ?_, ?_, ?_, reportsError_tag ha⟩
  · have hspace : ∀ u ∈ (a ++ [34]).head?, isSpace u = false := by
      intro u hu
      rw [hadef] at hu
      cases hu
      rfl
    have hparse : parseHosts (js "<host " ++ ((a ++ [34]) ++ (js ">" ++ []))) = _ := parseHosts_cons hspace hquote (.inl rfl)
    rw [parseHosts_nil] at hparse
    rw [← hparse, List.append_nil, List.append_assoc]
    rfl
  · change getAttr (a ++ [34]) (js "Type") = type
    rw [getAttr_eq (by decide), hsplit, show split (mid ++ (name ++ 34 :: [])) 34 = w :: rest from hw, quotedValue,
      if_pos (by decide)]
    rfl
  · change getAttr (a ++ [34]) (js "Name") = name
    rw [getAttr_eq (by decide), hsplit, show split (mid ++ (name ++ 34 :: [])) 34 = w :: rest from hw, quotedValue,
      if_neg (by decide), ← hw]
    rw [show js "Name" ++ js "=" = js "Name=" by decide]
    exact congrArg (·.getD []) hvalue

end Change

/-! ### A host that this plugin is bound to -/

/-- The input that a payload holds. -/
def inputOfPayload (payload : Obj Json) : Option DnsApplyInput := do
  let zone ← (Obj.get payload (js "zone")).bind jsonText
  let action ← (Obj.get payload (js "action")).bind jsonText
  let record ← Obj.get payload (js "record")
  let type ← (record.prop (js "type")).bind jsonText
  let name ← (record.prop (js "name")).bind jsonText
  let value ← (record.prop (js "value")).bind jsonText
  let ttl := match record.prop (js "ttl") with
    | some (.num d) => some d
    | _ => none
  return ⟨zone, if action = js "set" then .set else .delete, ⟨type, name, value, ttl⟩⟩

theorem inputOfPayload_payload (input : DnsApplyInput) : inputOfPayload input.payload = some input := by
  obtain ⟨zone, action, type, name, value, ttl⟩ := input
  cases action with
  | set => cases ttl <;> rfl
  | delete => cases ttl <;> rfl

/-- A host without other stores, whose records this plugin changes. -/
def namecheapDeps (server : Server) (config : NamecheapConfig) : HostDeps Net where
  bind
    | some (.str s) => .ok s
    | _ => .error (.typeError (js "Provided value cannot be bound to SQLite parameter"))
  bind_str _ := rfl
  getSecret _ := pure none
  putSecret _ _ := pure ()
  storeCert _ _ _ _ := pure .null
  onCertChange := pure ()
  manifestTypes _ := pure []
  allocateIp _ _ := pure none
  releaseIp _ := pure ()
  probeNetwork := none
  dnsProvider := pure (some (js "dns-namecheap"))
  pluginInvoker _ _ payload := fun net =>
    match inputOfPayload payload with
    | none => (.ok (.error none), net)
    | some input =>
      ((match (applyDnsRecord (fetchFrom server) config input net).1 with
        | .ok _ => .ok (.ok (some (.obj [])))
        | .error e => .ok (.error (some e.message))),
        (applyDnsRecord (fetchFrom server) config input net).2)
  log _ _ := pure ()

theorem bound_namecheapDeps (server : Server) (config : NamecheapConfig) :
    Bound (namecheapDeps server config) server config where
  provider _ := rfl
  invoke input net := by
    rw [namecheapDeps]
    dsimp only
    rw [inputOfPayload_payload]

/-! ### Staying in scope -/

section Scope

variable {rows : PluginRows} {input : DnsApplyInput}

theorem splitZone_ok {zone sld tld : JsString} (h : splitZone zone = .ok (sld, tld)) : sld ++ js "." ++ tld = zone := by
  unfold splitZone at h
  dsimp only at h
  split at h
  · cases h
  · rename_i hlen
    cases h
    have hne : split zone 46 ≠ [] := List.ne_nil_of_length_pos (by omega)
    have hfront : (split zone 46).dropLast ≠ [] := by
      apply List.ne_nil_of_length_pos
      rw [List.length_dropLast]
      omega
    have hlast : (split zone 46).getLastD [] = (split zone 46).getLast hne := by
      rw [List.getLastD_eq_getLast?, List.getLast?_eq_some_getLast hne]
      rfl
    have hjoin := join_append hfront (List.cons_ne_nil ((split zone 46).getLast hne) []) (js ".")
    rw [List.dropLast_append_getLast, show js "." = [46] from rfl, join_split] at hjoin
    rw [hlast]
    refine Eq.trans ?_ hjoin.symm
    simp [join, List.intercalate, js, encode, utf16]

theorem exists_splitZone (hdot : 46 ∈ input.zone) :
    ∃ sld tld, splitZone (registrableZone input.zone) = .ok (sld, tld) := by
  cases h : splitZone (registrableZone input.zone) with
  | ok z => exact ⟨z.1, z.2, rfl⟩
  | error e => exact absurd ((registrableZone_spec input.zone).2.mpr hdot) ((splitZone_error_iff _).mp ⟨e, h⟩)

/-- A change sends the read, and the write if the read was answered without an error. -/
theorem sent_apply {server : Server} {config : NamecheapConfig} {net : Net} {sld tld : JsString}
    (hzone : splitZone (registrableZone input.zone) = .ok (sld, tld)) :
    (applyDnsRecord (fetchFrom server) config input net).2.sent = net.sent ++ [getHostsRequest config sld tld] ∨
      ∃ response, server net.sent (getHostsRequest config sld tld) = .ok response ∧
        (applyDnsRecord (fetchFrom server) config input net).2.sent =
          net.sent ++ [getHostsRequest config sld tld,
            setHostsRequest config sld tld (nextHosts input (parseHosts response.text))] := by
  cases hserver : server net.sent (getHostsRequest config sld tld) with
  | error e =>
    left
    simp only [applyDnsRecord, getHosts, Act.bind_apply, Act.ofExcept, hzone, fetchFrom, hserver]
  | ok response =>
    cases hcheck : checkErrors response.text with
    | error e =>
      left
      rw [apply_of_error hzone hserver hcheck]
    | ok u => exact .inr ⟨response, rfl, apply_of_ok hzone hserver hcheck⟩

/-- What a call changes if its zone is granted and the answer reports no error. -/
theorem StaysInScope.changed (h : StaysInScope rows input) (htyped : ZonesTyped rows.grants)
    (hwild : js "*" ∉ grantedZones rows.grants) (hgranted : input.zone ∈ grantedZones rows.grants)
    (hdot : 46 ∈ input.zone) {xml : JsString} (hxml : reportsError xml = false) {host : DnsHost}
    (hhost : (parseHosts xml).count host ≠ (nextHosts input (parseHosts xml)).count host) :
    InScope (grantedZones rows.grants) (absoluteName (registrableZone input.zone) host.name) := by
  obtain ⟨sld, tld, hzone⟩ := exists_splitZone hdot
  let server : Server := fun _ _ => .ok ⟨true, 200, xml⟩
  let s : HostState Net := ⟨fun _ => rows, ⟨[]⟩⟩
  have hsent : (dnsMethod (namecheapDeps server testConfig) input.action (some (.str [])) input.args s).2.rest = _ :=
    sent_dnsMethod (bound_namecheapDeps server testConfig) htyped hwild
  have happly : (applyDnsRecord (fetchFrom server) testConfig input s.rest).2.sent = s.rest.sent ++ _ :=
    apply_of_ok hzone rfl ((checkErrors_ok_iff xml).mpr hxml)
  rw [if_pos hgranted] at hsent
  rw [← hsent] at happly
  rw [← splitZone_ok hzone]
  exact h _ server testConfig [] s (bound_namecheapDeps server testConfig) rfl _ happly sld tld _
    (List.mem_cons_of_mem _ (List.mem_singleton_self _)) _ rfl host hhost

/-- **Which calls stay in scope.** For grants without the wildcard, every record that changes lies in
a granted zone if and only if the zone of the call is not granted, or it has no dot, or every record
with the key of the call does: the one to be set, and any other that can be read. -/
theorem stays_in_scope_iff (rows : PluginRows) (input : DnsApplyInput) (htyped : ZonesTyped rows.grants)
    (hwild : js "*" ∉ grantedZones rows.grants) :
    StaysInScope rows input ↔
      input.zone ∉ grantedZones rows.grants ∨ 46 ∉ input.zone ∨
        ((input.action = .set →
            InScope (grantedZones rows.grants) (absoluteName (registrableZone input.zone) input.relativeName)) ∧
          ∀ type name, recordKey type name = input.key → Readable type → Readable name →
            InScope (grantedZones rows.grants) (absoluteName (registrableZone input.zone) name)) := by
  constructor
  · intro h
    by_cases hgranted : input.zone ∈ grantedZones rows.grants
    · by_cases hdot : 46 ∈ input.zone
      · refine .inr (.inr ?_)
        have hset : input.action = .set →
            InScope (grantedZones rows.grants) (absoluteName (registrableZone input.zone) input.relativeName) := by
          intro haction
          have hnew : (parseHosts []).count input.host ≠ (nextHosts input (parseHosts [])).count input.host := by
            simp [parseHosts_nil, nextHosts, haction]
          exact h.changed htyped hwild hgranted hdot (by decide) hnew
        refine ⟨hset, fun type name hkey htype hname => ?_⟩
        obtain ⟨xml, host, hparse, rfl, rfl, hxml⟩ := exists_parseHosts htype hname
        by_cases hsame : input.action = .set ∧ host = input.host
        · rw [hsame.2]
          exact hset hsame.1
        · refine h.changed htyped hwild hgranted hdot hxml ?_
          rw [hparse, nextHosts]
          have hfilter : ([host].filter fun h => recordKey h.type h.name != input.key) = [] := by
            simp [hkey]
          rw [hfilter]
          cases haction : input.action with
          | delete => simp
          | set =>
            have hne : ([] ++ [input.host] : List DnsHost).count host = 0 := by
              rw [List.nil_append, List.count_eq_zero, List.mem_singleton]
              exact fun heq => hsame ⟨haction, heq⟩
            simp only [hne]
            simp
      · exact .inr (.inl hdot)
    · exact .inl hgranted
  · intro hcond deps server config id s hbound hrows new hnew sld tld hosts hmem response hresponse host hchanged
    have hsent : (dnsMethod deps input.action (some (.str id)) input.args s).2.rest = _ :=
      sent_dnsMethod hbound (hrows ▸ htyped) (hrows ▸ hwild)
    rw [hsent, hrows] at hnew
    by_cases hgranted : input.zone ∈ grantedZones rows.grants
    · rw [if_pos hgranted] at hnew
      by_cases hdot : 46 ∈ input.zone
      · obtain ⟨sld', tld', hzone⟩ := exists_splitZone hdot
        have hnot : ∀ hosts', setHostsRequest config sld tld hosts' ≠ getHostsRequest config sld' tld' := by
          intro hosts' heq
          exact getHostsRequest_not_isSetHosts (heq ▸ setHostsRequest_isSetHosts hosts')
        rcases sent_apply hzone with hread | ⟨response', hresponse', hwrite⟩
        · rw [hread] at hnew
          rw [← List.append_cancel_left hnew, List.mem_singleton] at hmem
          exact absurd hmem (hnot hosts)
        · rw [hwrite] at hnew
          rw [← List.append_cancel_left hnew] at hmem
          rcases List.mem_cons.mp hmem with heq | hmem
          · exact absurd heq (hnot hosts)
          · obtain ⟨rfl, rfl, rfl⟩ := setHostsRequest_inj (List.mem_singleton.mp hmem)
            rw [hresponse] at hresponse'
            cases hresponse'
            obtain ⟨hkey, hhost⟩ := changed_spec hchanged
            obtain ⟨hset, hread⟩ := (hcond.resolve_left (fun h => h hgranted)).resolve_left (fun h => h hdot)
            rw [splitZone_ok hzone]
            rcases hhost with hmem | ⟨haction, rfl⟩
            · obtain ⟨htype, hname⟩ := readable_of_mem_parseHosts hmem
              exact hread _ _ hkey htype hname
            · exact hset haction
      · obtain ⟨e, he⟩ : ∃ e, applyDnsRecord (fetchFrom server) config input s.rest = (.error e, s.rest) :=
          apply_of_no_dot hdot
        rw [he] at hnew
        rw [List.self_eq_append_right.mp hnew] at hmem
        cases hmem
    · rw [if_neg hgranted] at hnew
      rw [List.self_eq_append_right.mp hnew] at hmem
      cases hmem

end Scope

/-- The grants of an issuer that is to answer challenges below `home.example.com`. -/
def homeRows : PluginRows where
  grants := [⟨js "cert-issuer", js "dns.record.write",
    some (.obj [(js "zones", .arr [.str (js "home.example.com")])]), false⟩]
  kv := []
  trusted := []

/-- A change of a record under the name of that zone. -/
def homeInput (name : String) : DnsApplyInput where
  zone := js "home.example.com"
  action := .set
  record := ⟨js "A", js name, js "192.0.2.1", none⟩

theorem homeRows_typed : ZonesTyped homeRows.grants := by
  intro row hrow
  rw [homeRows, List.mem_singleton] at hrow
  subst hrow
  exact ⟨_, rfl, fun _ => rfl⟩

/-- Neither part has a colon, so that no other parts make this key. -/
theorem recordKey_inj {type name type' name' : JsString} (htype : 58 ∉ type) (hname : 58 ∉ name)
    (h : recordKey type' name' = recordKey type name) : type' = type ∧ name' = name := by
  have hcount := congrArg (List.count 58) h
  have hkey : ∀ t n : JsString, recordKey t n = t ++ 58 :: n := fun t n => by simp [recordKey, js, encode, utf16]
  rw [hkey, hkey, List.count_append, List.count_cons_self, List.count_append, List.count_cons_self,
    List.count_eq_zero.mpr htype, List.count_eq_zero.mpr hname] at hcount
  have htype' : 58 ∉ type' := List.count_eq_zero.mp (by omega)
  have hname' : 58 ∉ name' := List.count_eq_zero.mp (by omega)
  have hsplit := congrArg (fun s => split s 58) h
  simp only [hkey, split_append_cons htype, split_append_cons htype', split_of_not_mem hname, split_of_not_mem hname'] at hsplit
  simpa using hsplit

/-- A challenge of the domain that is granted stays in scope. -/
theorem stays_in_scope_home :
    ZonesTyped homeRows.grants ∧ js "*" ∉ grantedZones homeRows.grants ∧
      (homeInput "_acme-challenge.home.example.com").zone ∈ grantedZones homeRows.grants ∧
      StaysInScope homeRows (homeInput "_acme-challenge.home.example.com") := by
  refine ⟨homeRows_typed, by decide, by decide, ?_⟩
  refine (stays_in_scope_iff _ _ homeRows_typed (by decide)).mpr (.inr (.inr ⟨fun _ => by decide, ?_⟩))
  intro type name hkey _ _
  obtain ⟨-, rfl⟩ := recordKey_inj (by decide) (by decide) hkey
  decide

/-- The holder of a grant for `home.example.com` can change `www.example.com`. -/
theorem home_reaches_www : ¬ StaysInScope homeRows (homeInput "www.example.com") := by
  intro h
  have hnew : (parseHosts []).count (homeInput "www.example.com").host ≠
      (nextHosts (homeInput "www.example.com") (parseHosts [])).count (homeInput "www.example.com").host := by
    simp [parseHosts_nil, nextHosts, homeInput]
  have hscope := h.changed homeRows_typed (by decide) (by decide) (by decide) (by decide) hnew
  exact absurd hscope (by decide)

end Wanfw.Plugins.Namecheap
