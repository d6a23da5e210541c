import Wanfw.Orchestrator.Cidr
import Wanfw.Store.Table

/-!
# Giving addresses away

`setIpamRange`, `allocateIp` and `releaseIp` of `state-store/store.ts`. The allocations have the
address alone as their key, but which addresses are free is asked for one range only. So the
lowest free address of a range can be live in another range whose CIDR overlaps, and the upsert
then takes the row away from it (`shared_address`). And an owner who comes back gets the address
it has, wherever the range is by now.

`ipam_safe_iff` says when neither happens: over every history the calls are safe just when each
of them meets `Clear`, which looks at the tables before the call only.
-/

namespace Wanfw.Orchestrator

open Wanfw.Js Wanfw.Store

/-- `IpamRangeRow`. -/
structure IpamRangeRow where
  id : JsString
  cidr : JsString
  gateway : JsString
  deriving DecidableEq

/-- `IpamAllocationRow`. -/
structure IpamAllocationRow where
  ip : JsString
  rangeId : JsString
  allocatedAt : JsString
  releasedAt : Option JsString
  owner : Option JsString
  deriving DecidableEq

/-- The row, released. -/
def IpamAllocationRow.release (now : JsString) (r : IpamAllocationRow) : IpamAllocationRow :=
  { r with releasedAt := some now }

theorem IpamAllocationRow.ip_release (now : JsString) (r : IpamAllocationRow) : (r.release now).ip = r.ip := rfl

/-- The two tables. -/
structure Ipam where
  ranges : Table IpamRangeRow.id
  allocations : Table IpamAllocationRow.ip

namespace Ipam

/-! ### The source -/

/-- The tables of a new store. -/
def empty : Ipam := ⟨.empty, .empty⟩

/-- `setIpamRange`. -/
def setIpamRange (s : Ipam) (row : IpamRangeRow) : Ipam := { s with ranges := s.ranges.upsert row }

/-- `getIpamRange`. -/
def getIpamRange (s : Ipam) (id : JsString) : Option IpamRangeRow := s.ranges.rows.find? fun r => r.id = id

/-- The live allocation that the owner has in the range, if an owner is named. -/
def existing (s : Ipam) (rangeId : JsString) : Option JsString → Option IpamAllocationRow
  | none | some [] => none
  | some owner => s.allocations.rows.find? fun r => r.rangeId = rangeId ∧ r.owner = some owner ∧ r.releasedAt = none

/-- The addresses of the range that are live. -/
def allocated (s : Ipam) (rangeId : JsString) : List JsString :=
  (s.allocations.rows.filter fun r => r.rangeId = rangeId ∧ r.releasedAt = none).map IpamAllocationRow.ip

/-- `allocateIp`. -/
def allocateIp (N : Numerals) (now rangeId : JsString) (owner : Option JsString) (s : Ipam) :
    Except JsError JsString × Ipam :=
  match s.getIpamRange rangeId with
  | none => (.error (.error (js "no ipam range registered with id '" ++ rangeId ++ js "'")), s)
  | some range =>
    match s.existing rangeId owner with
    | some row => (.ok row.ip, s)
    | none =>
      match hostsInCidr N range.cidr range.gateway with
      | .error e => (.error e, s)
      | .ok hosts =>
        match hosts.find? fun ip => ip ∉ s.allocated rangeId with
        | none =>
          (.error (.error (js "ipam range '" ++ rangeId ++ js "' (" ++ range.cidr ++ js ") has no free addresses")), s)
        | some candidate =>
          (.ok candidate, { s with allocations := s.allocations.upsert ⟨candidate, rangeId, now, none, owner⟩ })

/-- `releaseIp`. -/
def releaseIp (s : Ipam) (now ip : JsString) : Ipam :=
  { s with
    allocations := s.allocations.update (fun r => r.ip = ip ∧ r.releasedAt = none) (IpamAllocationRow.release now)
      (IpamAllocationRow.ip_release now) }

end Ipam

/-- A call. -/
inductive IpamOp where
  | setIpamRange (row : IpamRangeRow)
  | allocateIp (now rangeId : JsString) (owner : Option JsString)
  | releaseIp (now ip : JsString)

namespace Ipam

/-- The tables after a call. -/
def step (N : Numerals) (s : Ipam) : IpamOp → Ipam
  | .setIpamRange row => s.setIpamRange row
  | .allocateIp now rangeId owner => (s.allocateIp N now rangeId owner).2
  | .releaseIp now ip => s.releaseIp now ip

/-- The tables after a history of calls. -/
def run (N : Numerals) (ops : List IpamOp) : Ipam := ops.foldl (step N) empty

/-! ### What a call may do -/

/-- The address is given away and not taken back. -/
def Live (s : Ipam) (r : IpamAllocationRow) : Prop := r ∈ s.allocations ∧ r.releasedAt = none

/-- What is asked of a call: the address it returns is a host of the range as it is now, and
not live before in another range or for another owner; and the live allocations of others stay. -/
def Safe (N : Numerals) (s : Ipam) : IpamOp → Prop
  | .setIpamRange row => ∀ r, s.Live r → (s.setIpamRange row).Live r
  | .allocateIp now rangeId owner =>
    (∀ ip, (s.allocateIp N now rangeId owner).1 = .ok ip →
      (∃ range, s.getIpamRange rangeId = some range ∧ UsableHost N range.cidr range.gateway ip) ∧
        ∀ r, s.Live r → r.ip = ip → r.rangeId = rangeId ∧ r.owner = owner) ∧
      ∀ r, s.Live r → ¬ (r.rangeId = rangeId ∧ r.owner = owner) → (s.allocateIp N now rangeId owner).2.Live r
  | .releaseIp _ _ => True

/-- The address that the owner has in the range is still one of the range's hosts; and where a new
address is looked for, a host of the range that is live in another range has a free one before it. -/
def Clear (N : Numerals) (s : Ipam) : IpamOp → Prop
  | .allocateIp _ rangeId owner =>
    ∀ range, s.getIpamRange rangeId = some range →
      (∀ row, s.existing rangeId owner = some row → UsableHost N range.cidr range.gateway row.ip) ∧
        ∀ hosts, s.existing rangeId owner = none → hostsInCidr N range.cidr range.gateway = .ok hosts →
          ∀ r, s.Live r → r.rangeId ≠ rangeId → ∀ lower higher, hosts = lower ++ r.ip :: higher →
            ∃ ip ∈ lower, ip ∉ s.allocated rangeId
  | _ => True

/-! ### Lemmas about the tables -/

section Tables

variable {N : Numerals} {s : Ipam} {r r' : IpamAllocationRow} {now ip rangeId : JsString} {owner : Option JsString}

theorem mem_allocated : ip ∈ s.allocated rangeId ↔ ∃ r, s.Live r ∧ r.rangeId = rangeId ∧ r.ip = ip := by
  unfold allocated
  rw [List.mem_map]
  constructor
  · rintro ⟨r, hr, rfl⟩
    obtain ⟨hr, hlive⟩ := List.mem_filter.mp hr
    obtain ⟨hrange, hlive⟩ := of_decide_eq_true hlive
    exact ⟨r, ⟨hr, hlive⟩, hrange, rfl⟩
  · rintro ⟨r, ⟨hr, hlive⟩, hrange, rfl⟩
    exact ⟨r, List.mem_filter.mpr ⟨hr, decide_eq_true ⟨hrange, hlive⟩⟩, rfl⟩

/-- An address is live once. -/
theorem Live.eq (hr : s.Live r) (hr' : s.Live r') (h : r.ip = r'.ip) : r = r' := Table.eq_of_key_eq hr.1 hr'.1 h

/-- What is live in another range is not live in this one. -/
theorem Live.not_mem_allocated (hr : s.Live r) (h : r.rangeId ≠ rangeId) : r.ip ∉ s.allocated rangeId := by
  intro hmem
  obtain ⟨r', hr', hrange, hip⟩ := mem_allocated.mp hmem
  apply h
  rw [hr.eq hr' hip.symm, hrange]

/-- The row that is found is the owner's. -/
theorem existing_some (h : s.existing rangeId owner = some r) : s.Live r ∧ r.rangeId = rangeId ∧ r.owner = owner := by
  unfold existing at h
  split at h
  · cases h
  · cases h
  · have hmem := List.mem_of_find?_eq_some h
    have hcond := List.find?_some h
    obtain ⟨hrange, howner, hlive⟩ := of_decide_eq_true hcond
    exact ⟨⟨hmem, hlive⟩, hrange, howner⟩

theorem allocateIp_existing (N : Numerals) (now : JsString) {range : IpamRangeRow}
    (hrange : s.getIpamRange rangeId = some range)
    (h : s.existing rangeId owner = some r) : s.allocateIp N now rangeId owner = (.ok r.ip, s) := by
  simp only [allocateIp, hrange, h]

theorem allocateIp_fresh (N : Numerals) (now : JsString) {range : IpamRangeRow} {hosts : List JsString}
    (hrange : s.getIpamRange rangeId = some range)
    (hnone : s.existing rangeId owner = none) (hhosts : hostsInCidr N range.cidr range.gateway = .ok hosts)
    (h : (hosts.find? fun ip => ip ∉ s.allocated rangeId) = some ip) : s.allocateIp N now rangeId owner =
      (.ok ip, { s with allocations := s.allocations.upsert ⟨ip, rangeId, now, none, owner⟩ }) := by
  simp only [allocateIp, hrange, hnone, hhosts, h]

/-- What an allocation can do: fail and leave the tables, return what the owner has, or give the first
free host away. -/
theorem allocateIp_cases (N : Numerals) (s : Ipam) (now rangeId : JsString) (owner : Option JsString) :
    (∃ e, s.allocateIp N now rangeId owner = (.error e, s)) ∨
      ∃ range, s.getIpamRange rangeId = some range ∧
        ((∃ row, s.existing rangeId owner = some row ∧ s.allocateIp N now rangeId owner = (.ok row.ip, s)) ∨
          s.existing rangeId owner = none ∧ ∃ hosts ip, hostsInCidr N range.cidr range.gateway = .ok hosts ∧
            (hosts.find? fun ip => ip ∉ s.allocated rangeId) = some ip ∧
            s.allocateIp N now rangeId owner =
              (.ok ip, { s with allocations := s.allocations.upsert ⟨ip, rangeId, now, none, owner⟩ })) := by
  unfold allocateIp
  cases hrange : s.getIpamRange rangeId with
  | none => exact .inl ⟨_, rfl⟩
  | some range =>
    dsimp only
    cases hexisting : s.existing rangeId owner with
    | some row => exact .inr ⟨range, rfl, .inl ⟨row, rfl, rfl⟩⟩
    | none =>
      dsimp only
      cases hhosts : hostsInCidr N range.cidr range.gateway with
      | error e => exact .inl ⟨e, rfl⟩
      | ok hosts =>
        dsimp only
        cases hfind : hosts.find? fun ip => ip ∉ s.allocated rangeId with
        | none => exact .inl ⟨_, rfl⟩
        | some ip => exact .inr ⟨range, rfl, .inr ⟨rfl, hosts, ip, hhosts, hfind, rfl⟩⟩

/-- A new row takes the place of the one with its address. -/
theorem live_upsert {row : IpamAllocationRow} (hrow : row.releasedAt = none) :
    Live { s with allocations := s.allocations.upsert row } r ↔ r = row ∨ s.Live r ∧ r.ip ≠ row.ip := by
  change r ∈ s.allocations.upsert row ∧ _ ↔ _ ∨ (r ∈ s.allocations ∧ _) ∧ _
  rw [Table.mem_upsert]
  constructor
  · rintro ⟨rfl | ⟨hr, hne⟩, hlive⟩
    · exact .inl rfl
    · exact .inr ⟨⟨hr, hlive⟩, hne⟩
  · rintro (rfl | ⟨⟨hr, hlive⟩, hne⟩)
    · exact ⟨.inl rfl, hrow⟩
    · exact ⟨.inr ⟨hr, hne⟩, hlive⟩

/-- A failed call leaves the tables. -/
theorem allocateIp_error {e : JsError} (h : (s.allocateIp N now rangeId owner).1 = .error e) :
    (s.allocateIp N now rangeId owner).2 = s := by
  rcases allocateIp_cases N s now rangeId owner with ⟨_, heq⟩ | ⟨_, _, ⟨_, _, heq⟩ | ⟨_, _, _, _, _, heq⟩⟩ <;>
    rw [heq] at h ⊢
  all_goals cases h

end Tables

/-! ### One call -/

section Step

variable {N : Numerals} {s : Ipam} {now rangeId : JsString} {owner : Option JsString}

theorem safe_of_clear (h : s.Clear N (.allocateIp now rangeId owner)) : s.Safe N (.allocateIp now rangeId owner) := by
  rcases allocateIp_cases N s now rangeId owner with ⟨e, heq⟩ | ⟨range, hrange, hcase⟩
  · refine ⟨fun ip hip => ?_, fun r hr _ => ?_⟩
    · rw [heq] at hip
      cases hip
    · rwa [heq]
  obtain ⟨hheld, hfree⟩ := h range hrange
  rcases hcase with ⟨row, hrow, heq⟩ | ⟨hnone, hosts, ip, hhosts, hfind, heq⟩
  · -- The owner has an address: nothing is written.
    obtain ⟨hlive, hof, howner⟩ := existing_some hrow
    refine ⟨fun ip hip => ?_, fun r hr _ => ?_⟩
    · rw [heq] at hip
      cases hip
      refine ⟨⟨range, hrange, hheld row hrow⟩, fun r hr hip => ?_⟩
      obtain rfl := hr.eq hlive hip
      exact ⟨hof, howner⟩
    · rwa [heq]
  · -- A new row: no live row of another range stood in its place.
    obtain ⟨hip, lower, higher, hsplit, hlower⟩ := List.find?_eq_some_iff_append.mp hfind
    have hnew : ∀ r, s.Live r → r.ip ≠ ip := by
      rintro r hr rfl
      by_cases hof : r.rangeId = rangeId
      · exact of_decide_eq_true hip (mem_allocated.mpr ⟨r, hr, hof, rfl⟩)
      · obtain ⟨ip', hmem, hfree⟩ := hfree hosts hnone hhosts r hr hof lower higher hsplit
        simpa [hfree] using hlower ip' hmem
    refine ⟨fun ip' hip' => ?_, fun r hr _ => ?_⟩
    · rw [heq] at hip'
      cases hip'
      have hmem : ip ∈ hosts := by
        rw [hsplit]
        exact List.mem_append_right _ List.mem_cons_self
      exact ⟨⟨range, hrange, usable_of_mem hhosts hmem⟩, fun r hr hip => absurd hip (hnew r hr)⟩
    · rw [heq]
      exact (live_upsert rfl).mpr (.inr ⟨hr, hnew r hr⟩)

theorem clear_of_safe (h : s.Safe N (.allocateIp now rangeId owner)) : s.Clear N (.allocateIp now rangeId owner) := by
  intro range hrange
  obtain ⟨hreturned, -⟩ := h
  refine ⟨fun row hrow => ?_, fun hosts hnone hhosts r hr hother lower higher hsplit => ?_⟩
  · have heq := allocateIp_existing N now hrange hrow
    obtain ⟨⟨range', hrange', husable⟩, -⟩ := hreturned row.ip (by rw [heq])
    obtain rfl : range = range' := Option.some.inj (hrange.symm.trans hrange')
    exact husable
  · -- Without a free address before it, the other range's address is the one that is found.
    by_contra hcon
    have hfind : (hosts.find? fun ip => ip ∉ s.allocated rangeId) = some r.ip := by
      refine List.find?_eq_some_iff_append.mpr ⟨decide_eq_true (hr.not_mem_allocated hother), lower, higher, hsplit, ?_⟩
      intro ip hip
      by_contra hfree
      exact hcon ⟨ip, hip, of_decide_eq_true (by simpa using hfree)⟩
    have heq := allocateIp_fresh N now hrange hnone hhosts hfind
    exact hother ((hreturned r.ip (by rw [heq])).2 r hr rfl).1

/-- One call is safe just when it is clear. -/
theorem safe_iff_clear (N : Numerals) (s : Ipam) (op : IpamOp) : s.Safe N op ↔ s.Clear N op := by
  cases op with
  | setIpamRange row => exact ⟨fun _ => trivial, fun _ r hr => hr⟩
  | allocateIp now rangeId owner => exact ⟨clear_of_safe, safe_of_clear⟩
  | releaseIp now ip => exact Iff.rfl

end Step

/-! ### Histories -/

section Histories

variable {N : Numerals} {s : Ipam} {op : IpamOp}

/-- A named owner has at most one live address in a range. -/
def OwnedOnce (s : Ipam) : Prop :=
  ∀ r r' owner, s.Live r → s.Live r' → owner ≠ [] → r.owner = some owner → r'.owner = some owner →
    r.rangeId = r'.rangeId → r = r'

theorem existing_of_live {r : IpamAllocationRow} {owner : JsString} (hr : s.Live r) (hne : owner ≠ [])
    (howner : r.owner = some owner) : s.existing r.rangeId (some owner) ≠ none := by
  obtain ⟨u, owner, rfl⟩ := List.exists_cons_of_ne_nil hne
  intro h
  have hnot := List.find?_eq_none.mp h r hr.1
  exact hnot (decide_eq_true ⟨rfl, howner, hr.2⟩)

theorem live_of_release {now ip : JsString} {r : IpamAllocationRow} (h : (s.releaseIp now ip).Live r) : s.Live r := by
  rw [Live, releaseIp, Table.mem_update] at h
  obtain ⟨⟨r', hr', rfl⟩, hlive⟩ := h
  split at hlive
  · cases hlive
  · rename_i hnot
    rw [if_neg hnot]
    exact ⟨hr', hlive⟩

/-- Whatever is called, no owner comes to have two addresses in a range. -/
theorem OwnedOnce.step (h : s.OwnedOnce) : (step N s op).OwnedOnce := by
  cases op with
  | setIpamRange row => exact h
  | releaseIp now ip => exact fun r r' owner hr hr' => h r r' owner (live_of_release hr) (live_of_release hr')
  | allocateIp now rangeId owner =>
    change (s.allocateIp N now rangeId owner).2.OwnedOnce
    rcases allocateIp_cases N s now rangeId owner with ⟨e, heq⟩ | ⟨_, _, ⟨_, _, heq⟩ | ⟨hnone, _, ip, _, _, heq⟩⟩
    · rwa [heq]
    · rwa [heq]
    · rw [heq]
      -- The new row's owner had no live row in the range, and so no other row is the owner's.
      have hother : ∀ r name, s.Live r → name ≠ [] → r.owner = some name → owner = some name → r.rangeId ≠ rangeId := by
        rintro r name hr hne hname rfl rfl
        exact existing_of_live hr hne hname hnone
      intro r r' name hr hr' hne hname hname' hrange
      rcases (live_upsert rfl).mp hr with rfl | ⟨hr, -⟩ <;> rcases (live_upsert rfl).mp hr' with rfl | ⟨hr', -⟩
      · rfl
      · exact absurd hrange.symm (hother r' name hr' hne hname' hname)
      · exact absurd hrange (hother r name hr hne hname hname')
      · exact h r r' name hr hr' hne hname hname' hrange

/-- **An owner keeps one address**: in every history. -/
theorem ownedOnce_run (N : Numerals) (ops : List IpamOp) : (run N ops).OwnedOnce := by
  induction ops using List.reverseRecOn with
  | nil => exact fun r _ _ hr => absurd hr.1 List.not_mem_nil
  | append_singleton ops op ih =>
    rw [run, List.foldl_append]
    exact ih.step

/-- **When addresses are safe**: every call of a history is, just when every call is clear. -/
theorem ipam_safe_iff (N : Numerals) (ops : List IpamOp) :
    (∀ before op, before ++ [op] <+: ops → (run N before).Safe N op) ↔
      ∀ before op, before ++ [op] <+: ops → (run N before).Clear N op := by
  constructor
  · intro h before op hop
    exact (safe_iff_clear N _ op).mp (h before op hop)
  · intro h before op hop
    exact (safe_iff_clear N _ op).mpr (h before op hop)

/-- Two ranges with one CIDR give the same address away. -/
theorem shared_address : ¬ ∀ before op,
    before ++ [op] <+: [.setIpamRange ⟨js "a", js "10.0.0.0/29", js "10.0.0.1"⟩,
      .setIpamRange ⟨js "b", js "10.0.0.0/29", js "10.0.0.1"⟩, .allocateIp (js "0") (js "a") none,
      .allocateIp (js "1") (js "b") none] → (run Numerals.exact before).Safe Numerals.exact op := by
  intro h
  obtain ⟨hreturned, -⟩ := h [_, _, _] _ (List.prefix_refl _)
  have hsame := (hreturned (js "10.0.0.2") (by decide +kernel)).2 ⟨js "10.0.0.2", js "a", js "0", none, none⟩
    ⟨Table.mem_iff.mpr (by decide +kernel), rfl⟩ rfl
  exact absurd hsame.1 (by decide)

end Histories

end Ipam

end Wanfw.Orchestrator
