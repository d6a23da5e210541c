import Wanfw.Orchestrator.Ipam

/-!
# Owners and exhaustion

`allocateIp` where all calls are about one range, whose CIDR and gateway may change. Every row
is then of that range (`OneRange`), so that what is live in the range is what is live at all.

`allocateIp_single` says what a call does after any history: an owner who has an address gets it
again; otherwise the lowest free host is given away, and only if there is none the call fails
with the range exhausted.
-/

namespace Wanfw.Orchestrator

open Wanfw.Js Wanfw.Store

/-- The call registers no other range than `rangeId`. -/
def IpamOp.Single (rangeId : JsString) : IpamOp → Prop
  | .setIpamRange row => row.id = rangeId
  | _ => True

namespace Ipam

/-- `new IpamExhaustedError(…)`. -/
def ipamExhaustedError (range : IpamRangeRow) : JsError :=
  .error (js "ipam range '" ++ range.id ++ js "' (" ++ range.cidr ++ js ") has no free addresses")

/-- The address is live. -/
def Taken (s : Ipam) (ip : JsString) : Prop := ∃ r, s.Live r ∧ r.ip = ip

/-- The row is live, and the owner's, who has a name. -/
def Owns (s : Ipam) (owner : Option JsString) (r : IpamAllocationRow) : Prop :=
  s.Live r ∧ r.owner = owner ∧ ∃ name ≠ [], owner = some name

/-- The range has this host, and it is not live. -/
def Free (N : Numerals) (s : Ipam) (range : IpamRangeRow) (n : UInt32) : Prop :=
  UsableHost N range.cidr range.gateway (intToIp n) ∧ ¬ s.Taken (intToIp n)

/-- All there is belongs to one range. -/
structure OneRange (rangeId : JsString) (s : Ipam) : Prop where
  ranges : ∀ range ∈ s.ranges, range.id = rangeId
  allocations : ∀ r ∈ s.allocations, r.rangeId = rangeId

section OneRange

variable {N : Numerals} {s : Ipam} {op : IpamOp} {rangeId : JsString} {range : IpamRangeRow} {r : IpamAllocationRow}
  {owner : Option JsString} {now : JsString}

theorem getIpamRange_some {id : JsString} (h : s.getIpamRange id = some range) : range ∈ s.ranges ∧ range.id = id := by
  have hid := List.find?_some h
  exact ⟨List.mem_of_find?_eq_some h, of_decide_eq_true hid⟩

theorem OneRange.step (h : OneRange rangeId s) (hop : op.Single rangeId) : OneRange rangeId (step N s op) := by
  cases op with
  | setIpamRange row =>
    refine ⟨fun range hrange => ?_, h.allocations⟩
    rcases Table.mem_upsert.mp hrange with rfl | ⟨hrange, -⟩
    · exact hop
    · exact h.ranges range hrange
  | releaseIp now ip =>
    refine ⟨h.ranges, fun r hr => ?_⟩
    rw [Ipam.step, releaseIp, Table.mem_update] at hr
    obtain ⟨old, hold, rfl⟩ := hr
    split
    · exact h.allocations old hold
    · exact h.allocations old hold
  | allocateIp now id owner =>
    change OneRange rangeId (s.allocateIp N now id owner).2
    rcases allocateIp_cases N s now id owner with ⟨e, heq⟩ | ⟨range, hrange, ⟨_, _, heq⟩ | ⟨_, _, _, _, _, heq⟩⟩
    · rwa [heq]
    · rwa [heq]
    · rw [heq]
      obtain ⟨hrange, hid⟩ := getIpamRange_some hrange
      refine ⟨h.ranges, fun r hr => ?_⟩
      rcases Table.mem_upsert.mp hr with rfl | ⟨hr, -⟩
      · exact hid.symm.trans (h.ranges range hrange)
      · exact h.allocations r hr

theorem oneRange_run {ops : List IpamOp} (hops : ∀ op ∈ ops, op.Single rangeId) : OneRange rangeId (run N ops) := by
  induction ops using List.reverseRecOn with
  | nil => exact ⟨fun range h => absurd h List.not_mem_nil, fun r h => absurd h List.not_mem_nil⟩
  | append_singleton ops op ih =>
    rw [run, List.foldl_append]
    exact (ih fun op h => hops op (List.mem_append_left _ h)).step (hops op (by simp))

/-- The addresses that are live in the range are those that are live. -/
theorem OneRange.mem_allocated (h : OneRange rangeId s) {ip : JsString} : ip ∈ s.allocated rangeId ↔ s.Taken ip := by
  rw [Ipam.mem_allocated]
  constructor
  · rintro ⟨r, hr, -, hip⟩
    exact ⟨r, hr, hip⟩
  · rintro ⟨r, hr, hip⟩
    exact ⟨r, hr, h.allocations r hr.1, hip⟩

/-- Two live rows of an owner are one. -/
theorem OneRange.ownedOnce (h : OneRange rangeId s) (honce : s.OwnedOnce) {r' : IpamAllocationRow} (hr : s.Owns owner r)
    (hr' : s.Owns owner r') : r = r' := by
  obtain ⟨hlive, howner, name, hne, rfl⟩ := hr
  exact honce r r' name hlive hr'.1 hne howner hr'.2.1
    ((h.allocations r hlive.1).trans (h.allocations r' hr'.1.1).symm)

/-- What is found is the owner's live row. -/
theorem OneRange.existing (h : OneRange rangeId s) (honce : s.OwnedOnce) :
    s.existing rangeId owner = some r ↔ s.Owns owner r := by
  constructor
  · intro hrow
    obtain ⟨hlive, -, howner⟩ := existing_some hrow
    refine ⟨hlive, howner, ?_⟩
    unfold Ipam.existing at hrow
    split at hrow
    · cases hrow
    · cases hrow
    · rename_i name hne
      exact ⟨name, hne, rfl⟩
  · intro hr
    cases hrow : s.existing rangeId owner with
    | none =>
      obtain ⟨hlive, howner, name, hne, rfl⟩ := hr
      rw [← h.allocations r hlive.1] at hrow
      exact absurd hrow (existing_of_live hlive hne howner)
    | some row =>
      obtain ⟨hlive, -, howner⟩ := existing_some hrow
      rw [h.ownedOnce honce ⟨hlive, howner, hr.2.2⟩ hr]

end OneRange

/-! ### The first free host -/

/-- The first number that is found in ascending order is the least one. -/
theorem find?_intToIp {ns : List UInt32} {p : JsString → Bool} {ip : JsString} (hsorted : ns.Pairwise (· < ·))
    (h : (ns.map intToIp).find? p = some ip) :
    ∃ n ∈ ns, ip = intToIp n ∧ p (intToIp n) = true ∧ ∀ m ∈ ns, p (intToIp m) = true → n ≤ m := by
  rw [List.find?_map] at h
  obtain ⟨n, hn, rfl⟩ := Option.map_eq_some_iff.mp h
  obtain ⟨hp, lower, higher, rfl, hlower⟩ := List.find?_eq_some_iff_append.mp hn
  refine ⟨n, by simp, rfl, hp, fun m hm hpm => ?_⟩
  rcases List.mem_append.mp hm with hm | hm
  · simpa [hpm] using hlower m hm
  · rcases List.mem_cons.mp hm with rfl | hm
    · exact UInt32.le_refl m
    · exact UInt32.le_of_lt ((List.pairwise_cons.mp (List.pairwise_append.mp hsorted).2.1).1 m hm)

section Errors

variable {N : Numerals} {cidr gateway ip : JsString} {e : JsError}

/-- The error is about an address or a CIDR that cannot be read. -/
def Invalid (e : JsError) : Prop := ∃ text, e = .error (js "invalid" ++ text)

theorem invalid_ipToInt (h : ipToInt N ip = .error e) : Invalid e := by
  unfold ipToInt at h
  split at h
  · cases h
  · cases h
    exact ⟨js " IPv4 address: '" ++ ip ++ js "'", rfl⟩

theorem invalid_parseCidr (h : parseCidr N cidr = .error e) : Invalid e := by
  unfold parseCidr at h
  split at h
  · split at h
    · cases h
      exact ⟨js " CIDR: '" ++ cidr ++ js "'", rfl⟩
    · split at h
      · cases h
        exact ⟨js " CIDR prefix length: '" ++ cidr ++ js "'", rfl⟩
      · rcases except_bind_error.mp h with haddr | ⟨addr, -, h⟩
        · exact invalid_ipToInt haddr
        · cases h
  · cases h
    exact ⟨js " CIDR: '" ++ cidr ++ js "'", rfl⟩

theorem invalid_hostsInCidr (h : hostsInCidr N cidr gateway = .error e) : Invalid e := by
  unfold hostsInCidr at h
  rcases except_bind_error.mp h with hparsed | ⟨parsed, -, h⟩
  · exact invalid_parseCidr hparsed
  rcases except_bind_error.mp h with hexcluded | ⟨excluded, -, h⟩
  · unfold excludeInt at hexcluded
    split at hexcluded
    · cases hexcluded
    · cases hgateway : ipToInt N gateway with
      | ok n =>
        rw [hgateway] at hexcluded
        cases hexcluded
      | error e' =>
        rw [hgateway] at hexcluded
        cases hexcluded
        exact invalid_ipToInt hgateway
  · split at h
    · cases h
    · cases h

theorem ipamExhaustedError_not_invalid (range : IpamRangeRow) : ¬ Invalid (ipamExhaustedError range) := by
  rintro ⟨text, h⟩
  have hunit := congrArg (fun e => e.message[1]?) h
  cases hunit

end Errors

/-! ### Any history -/

section Call

variable {N : Numerals} {s : Ipam} {rangeId : JsString} {range : IpamRangeRow} {owner : Option JsString}

theorem OneRange.existing_none (h : OneRange rangeId s) (honce : s.OwnedOnce) (hnot : ∀ r, ¬ s.Owns owner r) :
    s.existing rangeId owner = none := by
  cases hrow : s.existing rangeId owner with
  | none => rfl
  | some row => exact absurd ((h.existing honce).mp hrow) (hnot row)

/-- Where the hosts can be listed, the lowest free one is found, or none is free. -/
theorem OneRange.find_cases (h : OneRange rangeId s) {hosts : List JsString}
    (hhosts : hostsInCidr N range.cidr range.gateway = .ok hosts) :
    (∃ n, (hosts.find? fun ip => ip ∉ s.allocated rangeId) = some (intToIp n) ∧ s.Free N range n ∧
        ∀ m, s.Free N range m → n ≤ m) ∨
      (hosts.find? fun ip => ip ∉ s.allocated rangeId) = none ∧ ∀ n, ¬ s.Free N range n := by
  obtain ⟨ns, rfl, hsorted, hmem⟩ := hostsInCidr_ok hhosts
  have hfree : ∀ n, (n ∈ ns ∧ decide (intToIp n ∉ s.allocated rangeId) = true) ↔ s.Free N range n := by
    intro n
    rw [hmem, decide_eq_true_iff, h.mem_allocated]
    rfl
  cases hfind : (ns.map intToIp).find? fun ip => ip ∉ s.allocated rangeId with
  | none =>
    refine .inr ⟨rfl, fun n hn => ?_⟩
    obtain ⟨hn, hnot⟩ := (hfree n).mpr hn
    exact List.find?_eq_none.mp hfind _ (List.mem_map_of_mem hn) hnot
  | some ip =>
    obtain ⟨n, hn, rfl, hnot, hleast⟩ := find?_intToIp hsorted hfind
    refine .inl ⟨n, rfl, (hfree n).mp ⟨hn, hnot⟩, fun m hm => ?_⟩
    obtain ⟨hm, hnot⟩ := (hfree m).mpr hm
    exact hleast m hm hnot

end Call

/-- **What `allocateIp` does**, after any calls about one range: a named owner has at most one live row, and gets its
address again. Otherwise the lowest free host is given away, and no other row is touched; where no host is free, the range is
exhausted. Whatever fails leaves the tables. -/
theorem allocateIp_single (N : Numerals) {rangeId : JsString} {ops : List IpamOp} (hops : ∀ op ∈ ops, op.Single rangeId)
    {s : Ipam} (hs : s = run N ops) :
    (∀ r r' name, s.Live r → s.Live r' → name ≠ [] → r.owner = some name → r'.owner = some name → r = r') ∧
      ∀ range, s.getIpamRange rangeId = some range → ∀ now owner,
        (∀ r, s.Owns owner r → s.allocateIp N now rangeId owner = (.ok r.ip, s)) ∧
        ((∀ r, ¬ s.Owns owner r) → (∃ n, s.Free N range n) → ∃ n s', s.allocateIp N now rangeId owner = (.ok (intToIp n), s') ∧
          s.Free N range n ∧ (∀ m, s.Free N range m → n ≤ m) ∧ s'.ranges = s.ranges ∧
          (∀ r, s'.Live r ↔ r = ⟨intToIp n, rangeId, now, none, owner⟩ ∨ s.Live r) ∧
          ∀ r, r.ip ≠ intToIp n → (r ∈ s'.allocations ↔ r ∈ s.allocations)) ∧
        ((∀ r, ¬ s.Owns owner r) → ((s.allocateIp N now rangeId owner).1 = .error (ipamExhaustedError range) ↔
          (∃ hosts, hostsInCidr N range.cidr range.gateway = .ok hosts) ∧
            ∀ n, UsableHost N range.cidr range.gateway (intToIp n) → s.Taken (intToIp n))) ∧
        ∀ e, (s.allocateIp N now rangeId owner).1 = .error e → (s.allocateIp N now rangeId owner).2 = s := by
  have hone : OneRange rangeId s := hs ▸ oneRange_run hops
  have honce : s.OwnedOnce := hs ▸ ownedOnce_run N ops
  refine ⟨fun r r' name hr hr' hne howner howner' => hone.ownedOnce honce ⟨hr, howner, name, hne, rfl⟩ ⟨hr', howner', name, hne, rfl⟩, ?_⟩
  intro range hrange now owner
  have hid : range.id = rangeId := (getIpamRange_some hrange).2
  refine ⟨fun r hr => ?_, fun hnot hfree => ?_, fun hnot => ?_, fun e => allocateIp_error⟩
  · exact allocateIp_existing N now hrange ((hone.existing honce).mpr hr)
  · -- a free host: the hosts can be listed, and one is found
    have hnone := hone.existing_none honce hnot
    obtain ⟨n, ⟨husable, -⟩⟩ := id hfree
    obtain ⟨hosts, hhosts⟩ : ∃ hosts, hostsInCidr N range.cidr range.gateway = .ok hosts := by
      obtain ⟨parsed, excluded, hparsed, hexcluded, -⟩ := usableHost_intToIp.mp husable
      rw [hostsInCidr, hparsed, hexcluded]
      simp only [bind, Except.bind]
      split <;> exact ⟨_, rfl⟩
    rcases hone.find_cases hhosts with ⟨n, hfind, hn, hleast⟩ | ⟨-, hall⟩
    · refine ⟨n, _, allocateIp_fresh N now hrange hnone hhosts hfind, hn, hleast, rfl, fun r => ?_, fun r hr => ?_⟩
      · rw [live_upsert rfl]
        refine or_congr_right (and_iff_left_of_imp fun hlive hip => ?_)
        exact hn.2 ⟨r, hlive, hip⟩
      · rw [Table.mem_upsert, and_iff_left (show r.ip ≠ intToIp n from hr), or_iff_right]
        rintro rfl
        exact hr rfl
    · obtain ⟨n, hn⟩ := hfree
      exact absurd hn (hall n)
  · -- the three ways in which a call without a row ends
    have hnone := hone.existing_none honce hnot
    cases hhosts : hostsInCidr N range.cidr range.gateway with
    | error e =>
      have hcall : s.allocateIp N now rangeId owner = (.error e, s) := by simp only [allocateIp, hrange, hnone, hhosts]
      rw [hcall]
      refine iff_of_false (fun heq => ?_) (fun h => ?_)
      · cases heq
        exact ipamExhaustedError_not_invalid range (invalid_hostsInCidr hhosts)
      · obtain ⟨⟨hosts, hhosts⟩, -⟩ := h
        cases hhosts
    | ok hosts =>
      rcases hone.find_cases hhosts with ⟨n, hfind, hn, -⟩ | ⟨hfind, hall⟩
      · rw [allocateIp_fresh N now hrange hnone hhosts hfind]
        exact iff_of_false (fun heq => by cases heq) fun h => hn.2 (h.2 n hn.1)
      · have hcall : s.allocateIp N now rangeId owner = (.error (ipamExhaustedError range), s) := by
          rw [ipamExhaustedError, hid]
          simp only [allocateIp, hrange, hnone, hhosts, hfind]
        rw [hcall]
        exact iff_of_true rfl ⟨⟨hosts, rfl⟩, fun n husable => not_not.mp fun htaken => hall n ⟨husable, htaken⟩⟩

/-- The proxy asks twice. -/
theorem allocateIp_single_proxy :
    let s := run Numerals.exact [.setIpamRange ⟨js "macvlan", js "10.0.0.0/29", js "10.0.0.1"⟩,
      .allocateIp (js "1") (js "macvlan") (some (js "proxy"))]
    s.allocateIp Numerals.exact (js "2") (js "macvlan") (some (js "proxy")) = (.ok (js "10.0.0.2"), s) := by
  have hops : ∀ op ∈ [IpamOp.setIpamRange ⟨js "macvlan", js "10.0.0.0/29", js "10.0.0.1"⟩,
      .allocateIp (js "1") (js "macvlan") (some (js "proxy"))], op.Single (js "macvlan") := by simp [IpamOp.Single]
  refine ((allocateIp_single Numerals.exact hops rfl).2 ⟨js "macvlan", js "10.0.0.0/29", js "10.0.0.1"⟩ (by decide +kernel) (js "2")
    (some (js "proxy"))).1 ⟨js "10.0.0.2", js "macvlan", js "1", none, some (js "proxy")⟩ ?_
  exact ⟨⟨Table.mem_iff.mpr (by decide +kernel), rfl⟩, rfl, js "proxy", by decide, rfl⟩

end Ipam

end Wanfw.Orchestrator
