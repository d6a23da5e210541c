import Wanfw.Plugins.Namecheap.Records

/-!
# A failed read

A change reads all the records before it writes them back, so that a read that failed
must not be followed by a write. The client looks at the body of the answer alone,
and there at one thing: an `Errors` element with an `Error` element in it. The status
of the answer, the status attribute of the document and the element with the records
are not looked at; an answer without that element is a domain without records.

`no_write_iff`: the write is held back exactly for the answers that `reportsError`
recognises.
-/

namespace Wanfw.Plugins.Namecheap

open Wanfw.Js

/-- The first `Errors` element has, in this order, `<Error`, `>` and `</Error>` in it. -/
def reportsError (xml : JsString) : Bool :=
  match cut (js "<Errors>") xml with
  | none => false
  | some (_, rest) =>
    match cut (js "</Errors>") rest with
    | none => false
    | some (block, _) => occursInOrder [js "<Error", js ">", js "</Error>"] block

/-! ### What the expressions recognise -/

theorem anchorless_errorTagRe : errorTagRe.anchorless = true := by
  simp [errorTagRe, Re.seqs, Re.opt, Re.plus, Re.anchorless, Re.anchorless_lit]

/-- The expression for an error matches where the three texts follow one another. -/
theorem occursInOrder_of_mem_run {y : JsString} {m : Match} (h : m ∈ errorTagRe.run false y) :
    occursInOrder [js "<Error", js ">", js "</Error>"] y = true := by
  simp only [errorTagRe, Re.seqs] at h
  obtain ⟨m₁, h₁, n₁, h, -⟩ := Re.mem_run_seq.mp h
  obtain ⟨m₂, h₂, n₂, h, -⟩ := Re.mem_run_seq.mp h
  obtain ⟨m₃, h₃, n₃, h, -⟩ := Re.mem_run_seq.mp h
  obtain ⟨m₄, h₄, n₄, h, -⟩ := Re.mem_run_seq.mp h
  obtain ⟨m₅, h₅, n₅, h, -⟩ := Re.mem_run_seq.mp h
  obtain ⟨m₆, h₆, -⟩ := Re.mem_run_seq.mp h
  have e₂ := Re.text_append_rest h₂
  have e₃ := Re.text_append_rest h₃
  have e₅ := Re.text_append_rest h₅
  rw [occursInOrder_cons_iff]
  refine ⟨[], m₁.rest, (Re.mem_run_lit.mp h₁).1, ?_⟩
  rw [occursInOrder_cons_iff]
  refine ⟨m₂.text ++ m₃.text, m₄.rest, ?_, ?_⟩
  · rw [e₂, e₃, (Re.mem_run_lit.mp h₄).1]
    simp
  rw [occursInOrder_cons_iff]
  refine ⟨m₅.text, m₆.rest, ?_, rfl⟩
  rw [e₅, (Re.mem_run_lit.mp h₆).1, List.append_assoc]

theorem exists_mem_run_of_occursInOrder {s : JsString}
    (h : occursInOrder [js "<Error", js ">", js "</Error>"] s = true) :
    ∃ x y, s = x ++ y ∧ errorTagRe.run false y ≠ [] := by
  rw [occursInOrder_cons_iff] at h
  obtain ⟨x, y, rfl, h⟩ := h
  unfold occursInOrder at h
  split at h
  · cases h
  · rename_i a b hcut
    rw [occursInOrder_cons_iff] at h
    obtain ⟨c, d, rfl, -⟩ := h
    have hy := eq_append_of_cut hcut
    have ha : (62 : UInt16) ∉ a := not_mem_of_cut hcut
    refine ⟨x, js "<Error" ++ y, by simp, ?_⟩
    have h₃ : ⟨a, js ">" ++ (c ++ js "</Error>" ++ d), []⟩ ∈ (Re.star true (· != 62)).run false y := by
      refine Re.mem_run_star.mpr ⟨rfl, by rw [hy]; simp, fun u hu => ?_⟩
      rw [bne_iff_ne]
      rintro rfl
      exact ha hu
    have h₅ : ⟨c, js "</Error>" ++ d, []⟩ ∈ (Re.star false fun _ => true).run false (c ++ js "</Error>" ++ d) :=
      Re.mem_run_star.mpr ⟨rfl, List.append_assoc _ _ _, fun _ _ => rfl⟩
    -- the optional number is left out
    refine Re.run_seq_ne_nil (m := ⟨js "<Error", y, []⟩) (Re.mem_run_lit.mpr ⟨rfl, rfl⟩) ?_
    refine Re.run_seq_ne_nil (m := ⟨[], y, []⟩) (Re.mem_run_alt.mpr (.inr (List.mem_singleton_self _))) ?_
    refine Re.run_seq_ne_nil h₃ ?_
    refine Re.run_seq_ne_nil (m := ⟨js ">", c ++ js "</Error>" ++ d, []⟩) (Re.mem_run_lit.mpr ⟨rfl, rfl⟩) ?_
    refine Re.run_seq_ne_nil (Re.mem_run_group.mpr ⟨_, h₅, rfl⟩) ?_
    refine Re.run_seq_ne_nil (m := ⟨js "</Error>", d, []⟩) (Re.mem_run_lit.mpr ⟨rfl, rfl⟩) ?_
    exact List.cons_ne_nil _ _

/-- **What `checkErrors` looks for.** -/
theorem extractErrors_eq_nil_iff (xml : JsString) : extractErrors xml = [] ↔ reportsError xml = false := by
  unfold extractErrors reportsError errorBlockRe
  rw [Re.exec_between]
  cases cut (js "<Errors>") xml with
  | none => simp
  | some q =>
    simp only [Option.bind_some]
    cases cut (js "</Errors>") q.2 with
    | none => simp
    | some q' =>
      simp only [Option.map_some, Option.bind_some]
      rw [show Match.group ⟨js "<Errors>" ++ (q'.1 ++ js "</Errors>"), q'.2, [(1, q'.1)]⟩ 1 = some q'.1 from rfl]
      rw [List.map_eq_nil_iff, Re.scan_eq_nil_iff anchorless_errorTagRe, ← Bool.not_eq_true]
      constructor
      · intro hnil hoccurs
        obtain ⟨x, y, hs, hrun⟩ := exists_mem_run_of_occursInOrder hoccurs
        exact hrun (hnil x y hs)
      · intro hoccurs x y hs
        by_contra hrun
        obtain ⟨m, hm⟩ := List.exists_mem_of_ne_nil _ hrun
        apply hoccurs
        rw [hs]
        exact occursInOrder_append x (occursInOrder_of_mem_run hm)

theorem checkErrors_ok_iff (xml : JsString) : checkErrors xml = .ok () ↔ reportsError xml = false := by
  rw [← extractErrors_eq_nil_iff]
  unfold checkErrors
  split
  · simp [*]
  · rename_i hne
    constructor
    · intro h
      split at h <;> cases h
    · intro h
      exact absurd h hne

/-! ### The write after the read -/

/-- The request writes records. -/
def Request.isSetHosts (request : Request) : Prop :=
  (js "Command", js "namecheap.domains.dns.setHosts") ∈ request.params

/-- Where the read is answered with this response, the change is rejected and nothing is written. -/
def HoldsBack (config : NamecheapConfig) (input : DnsApplyInput) (response : Response) : Prop :=
  ∀ (server : Server) (net : Net), (∀ sld tld, server net.sent (getHostsRequest config sld tld) = .ok response) →
    (∃ e, (applyDnsRecord (fetchFrom server) config input net).1 = .error e) ∧
      ∃ new, (applyDnsRecord (fetchFrom server) config input net).2.sent = net.sent ++ new ∧
        ∀ request ∈ new, ¬ request.isSetHosts

section Requests

variable {config : NamecheapConfig} {sld tld : JsString}

theorem getHostsRequest_not_isSetHosts : ¬ (getHostsRequest config sld tld).isSetHosts := by
  rw [Request.isSetHosts, getHostsRequest, commandParams_eq]
  simp only [baseParams, List.cons_append, List.nil_append, List.mem_cons, Prod.mk.injEq, List.not_mem_nil, or_false,
    not_or, not_and]
  exact ⟨fun h => absurd h (by decide), fun h => absurd h (by decide), fun h => absurd h (by decide),
    fun h => absurd h (by decide), fun _ => by decide, fun h => absurd h (by decide), fun h => absurd h (by decide)⟩

theorem setHostsRequest_isSetHosts (hosts : List DnsHost) : (setHostsRequest config sld tld hosts).isSetHosts := by
  rw [Request.isSetHosts, setHostsRequest_params, commandParams_eq]
  exact List.mem_append_left _ (List.mem_append_right _ List.mem_cons_self)

end Requests

/-! ### Zones -/

/-- The registrable zone is the zone or what follows one of its dots, and it has a dot if the zone has. -/
theorem registrableZone_spec (zone : JsString) :
    (registrableZone zone = zone ∨ ∃ x, zone = x ++ js "." ++ registrableZone zone) ∧
      (46 ∈ registrableZone zone ↔ 46 ∈ zone) := by
  unfold registrableZone
  dsimp only
  split
  · exact ⟨.inl rfl, Iff.rfl⟩
  · rename_i hlen
    obtain ⟨front, p, q, hparts, hfront⟩ : ∃ front p q, split zone 46 = front ++ [p, q] ∧ front ≠ [] := by
      obtain ⟨p, q, hpq⟩ := List.length_eq_two.mp
        (show ((split zone 46).drop ((split zone 46).length - 2)).length = 2 by rw [List.length_drop]; omega)
      refine ⟨(split zone 46).take ((split zone 46).length - 2), p, q, ?_, ?_⟩
      · rw [← hpq, List.take_append_drop]
      · apply List.ne_nil_of_length_pos
        rw [List.length_take]
        omega
    have hdrop : (split zone 46).drop ((split zone 46).length - 2) = [p, q] := by
      rw [hparts]
      simp
    have hzone : zone = join front (js ".") ++ js "." ++ join [p, q] (js ".") := by
      have := join_split zone 46
      rw [hparts, join_append hfront (by simp)] at this
      exact this.symm
    rw [hdrop]
    refine ⟨.inr ⟨_, hzone⟩, ?_⟩
    constructor
    · intro hmem
      rw [hzone]
      exact List.mem_append_right _ hmem
    · intro _
      rw [show [p, q] = [p] ++ [q] from rfl, join_append (by simp) (by simp)]
      exact List.mem_append_left _ (List.mem_append_right _ (List.mem_singleton_self _))

theorem splitZone_error_iff (zone : JsString) : (∃ e, splitZone zone = .error e) ↔ 46 ∉ zone := by
  rw [← split_length_lt_two]
  unfold splitZone
  dsimp only
  split
  · simp [*]
  · simp [*]

/-! ### Holding back -/

section HoldsBack

variable {config : NamecheapConfig} {input : DnsApplyInput} {response : Response} {server : Server} {net : Net}
  {sld tld : JsString}

theorem apply_of_no_dot (h : 46 ∉ input.zone) :
    ∃ e, applyDnsRecord (fetchFrom server) config input net = (.error e, net) := by
  obtain ⟨e, he⟩ := (splitZone_error_iff (registrableZone input.zone)).mpr
    (fun hmem => h ((registrableZone_spec input.zone).2.mp hmem))
  refine ⟨e, ?_⟩
  simp only [applyDnsRecord, getHosts, Act.bind_apply, Act.ofExcept, he]

/-- An answer with an error ends the change. -/
theorem apply_of_error (hzone : splitZone (registrableZone input.zone) = .ok (sld, tld))
    (hserver : server net.sent (getHostsRequest config sld tld) = .ok response) {e : JsError}
    (he : checkErrors response.text = .error e) :
    applyDnsRecord (fetchFrom server) config input net =
      (.error e, ⟨net.sent ++ [getHostsRequest config sld tld]⟩) := by
  simp only [applyDnsRecord, getHosts, Act.bind_apply, Act.ofExcept, hzone, fetchFrom, hserver, he]

/-- Any other answer is read for records, and these are written. -/
theorem apply_of_ok (hzone : splitZone (registrableZone input.zone) = .ok (sld, tld))
    (hserver : server net.sent (getHostsRequest config sld tld) = .ok response)
    (hok : checkErrors response.text = .ok ()) :
    (applyDnsRecord (fetchFrom server) config input net).2.sent =
      net.sent ++ [getHostsRequest config sld tld,
        setHostsRequest config sld tld (nextHosts input (parseHosts response.text))] := by
  simp only [applyDnsRecord, getHosts, setHosts, Act.bind_apply, Act.ofExcept, hzone, fetchFrom, hserver, hok,
    Act.pure_apply]
  split
  · rename_i heq
    rw [← (Prod.mk.inj heq).2, List.append_assoc]
    rfl
  · rename_i heq
    rw [← (Prod.mk.inj heq).2, List.append_assoc]
    rfl

/-- **When a failed read is not followed by a write.** Whatever the status and the body of the answer:
the change is rejected and nothing is written if and only if the zone has no dot, so that nothing
is sent at all, or the body reports an error. -/
theorem no_write_iff (config : NamecheapConfig) (input : DnsApplyInput) (response : Response) :
    HoldsBack config input response ↔ 46 ∉ input.zone ∨ reportsError response.text = true := by
  by_cases hdot : 46 ∈ input.zone
  · obtain ⟨⟨sld, tld⟩, hzone⟩ : ∃ z, splitZone (registrableZone input.zone) = .ok z := by
      cases h : splitZone (registrableZone input.zone) with
      | ok z => exact ⟨z, rfl⟩
      | error e =>
        have := (splitZone_error_iff _).mp ⟨e, h⟩
        exact absurd ((registrableZone_spec input.zone).2.mpr hdot) this
    constructor
    · intro h
      right
      by_contra hreports
      have hok := (checkErrors_ok_iff response.text).mpr (by simpa using hreports)
      obtain ⟨-, new, hsent, hnew⟩ := h (fun _ _ => .ok response) ⟨[]⟩ fun _ _ => rfl
      rw [apply_of_ok hzone rfl hok] at hsent
      exact hnew _ (List.append_cancel_left hsent ▸ List.mem_cons_of_mem _ (List.mem_singleton_self _))
        (setHostsRequest_isSetHosts _)
    · rintro (h | hreports) server net hserver
      · exact absurd hdot h
      · cases he : checkErrors response.text with
        | ok u =>
          rw [(checkErrors_ok_iff response.text).mp he] at hreports
          cases hreports
        | error e =>
          rw [apply_of_error hzone (hserver sld tld) he]
          refine ⟨⟨e, rfl⟩, _, rfl, fun request hrequest => ?_⟩
          rw [List.mem_singleton.mp hrequest]
          exact getHostsRequest_not_isSetHosts
  · constructor
    · exact fun _ => .inl hdot
    · intro _ server net _
      obtain ⟨e, he⟩ : ∃ e, applyDnsRecord (fetchFrom server) config input net = (.error e, net) := apply_of_no_dot hdot
      rw [he]
      exact ⟨⟨e, rfl⟩, [], (List.append_nil _).symm, fun _ h => absurd h List.not_mem_nil⟩

end HoldsBack

/-- A test of the plugin's own: the error of an address that is not on the allowlist. -/
def allowlistError : JsString :=
  js ("<?xml version=\"1.0\"?><ApiResponse Status=\"ERROR\"><Errors><Error Number=\"1011150\">IP not allowed</Error>" ++
    "</Errors></ApiResponse>")

example : reportsError allowlistError = true := by decide +kernel

/-- A change of the address of `www.example.com`. -/
def wwwInput : DnsApplyInput where
  zone := js "example.com"
  action := .set
  record := ⟨js "A", js "www.example.com", js "192.0.2.1", none⟩

/-- An API key of no account. -/
def testConfig : NamecheapConfig := ⟨js "u", js "k", js "u", js "192.0.2.9", none⟩

/-- A gateway's error page counts as a domain without records, and the write leaves the new record alone. -/
theorem write_after_bad_gateway :
    (applyDnsRecord (fetchFrom fun _ _ => .ok ⟨false, 502, js "<html>Bad Gateway</html>"⟩) testConfig wwwInput ⟨[]⟩).2.sent.map
        (fun request => request.params.filter fun p => startsWith p.1 (js "HostName")) =
      [[], [(js "HostName1", js "www")]] ∧
    ¬ HoldsBack testConfig wwwInput ⟨false, 502, js "<html>Bad Gateway</html>"⟩ := by
  constructor
  · decide +kernel
  · intro h
    have hzone : splitZone (registrableZone wwwInput.zone) = .ok (js "example", js "com") := by rfl
    have hok : checkErrors (js "<html>Bad Gateway</html>") = .ok () := (checkErrors_ok_iff _).mpr (by decide +kernel)
    obtain ⟨-, new, hsent, hnew⟩ := h (fun _ _ => .ok ⟨false, 502, js "<html>Bad Gateway</html>"⟩) ⟨[]⟩ fun _ _ => rfl
    rw [apply_of_ok hzone rfl hok] at hsent
    exact hnew _ (List.append_cancel_left hsent ▸ List.mem_cons_of_mem _ (List.mem_singleton_self _))
      (setHostsRequest_isSetHosts _)

end Wanfw.Plugins.Namecheap
