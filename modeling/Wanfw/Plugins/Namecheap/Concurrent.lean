import Wanfw.Plugins.Namecheap.Errors

/-!
# Two changes at once

A change reads all the records of a domain and writes all of them back, each with a request
of its own. The orchestrator starts a child process for every change and lets them run side
by side, so the requests of two changes interleave in any order.

What a call sends next is read off `applyDnsRecord` itself, run against the answers the
call has been given so far (`nextRequest`). The server keeps the records exactly as the
last write left them (`Serves`). `serializable_iff`: the records are in the end those of
one change after the other if and only if the two did not overlap, or the change that is
overwritten was none.
-/

namespace Wanfw.Plugins.Namecheap

open Wanfw.Js

/-! ### What a change does to records -/

section Records

variable {a b : DnsApplyInput} {hosts : List DnsHost}

/-- `withoutMatching`. -/
def DnsApplyInput.without (input : DnsApplyInput) (hosts : List DnsHost) : List DnsHost :=
  hosts.filter fun h => recordKey h.type h.name != input.key

theorem nextHosts_eq (input : DnsApplyInput) (hosts : List DnsHost) :
    nextHosts input hosts = input.without hosts ++ match input.action with
      | .delete => []
      | .set => [input.host] := by
  unfold nextHosts DnsApplyInput.without
  cases input.action <;> simp

/-- A change keeps the records of another key. -/
theorem without_nextHosts (hkey : a.key ≠ b.key) : b.without (nextHosts a hosts) = nextHosts a (b.without hosts) := by
  have hcomm : b.without (a.without hosts) = a.without (b.without hosts) := List.filter_comm ..
  have hhost : b.without [a.host] = [a.host] := by
    have hne : (recordKey a.host.type a.host.name != b.key) = true := bne_iff_ne.mpr hkey
    simp [DnsApplyInput.without, hne]
  have happend : ∀ xs ys, b.without (xs ++ ys) = b.without xs ++ b.without ys := fun xs ys => List.filter_append ..
  rw [nextHosts_eq, nextHosts_eq, happend, hcomm]
  cases a.action with
  | delete => rfl
  | set => rw [hhost]

/-- The change leaves the records that are not those of the other as they are. -/
def LeavesAlone (a b : DnsApplyInput) (hosts : List DnsHost) : Prop := nextHosts a (b.without hosts) = b.without hosts

/-- **A write over another change.** Writing the records of `b`, as they were before `a`, is `a` and `b` in
either order exactly when `a` has nothing to change beside the records of `b`. -/
theorem overwrite_iff (hkey : a.key ≠ b.key) :
    (nextHosts b hosts = nextHosts b (nextHosts a hosts) ∨ nextHosts b hosts = nextHosts a (nextHosts b hosts)) ↔
      LeavesAlone a b hosts := by
  have hfirst : nextHosts b hosts = nextHosts b (nextHosts a hosts) ↔ LeavesAlone a b hosts := by
    rw [nextHosts_eq b, nextHosts_eq b, without_nextHosts hkey, List.append_left_inj]
    exact eq_comm
  refine ⟨?_, fun h => .inl (hfirst.mpr h)⟩
  rintro (h | h)
  · exact hfirst.mp h
  · rw [nextHosts_eq b] at h
    cases hb : b.action with
    | delete =>
      rw [hb, List.append_nil] at h
      exact h.symm
    | set =>
      rw [hb] at h
      have hset : a.without [b.host] = [b.host] := by
        have hne : (recordKey b.host.type b.host.name != a.key) = true := bne_iff_ne.mpr hkey.symm
        simp [DnsApplyInput.without, hne]
      have happend : a.without (b.without hosts ++ [b.host]) = a.without (b.without hosts) ++ [b.host] :=
        (List.filter_append ..).trans (congrArg _ hset)
      rw [nextHosts_eq, happend] at h
      cases ha : a.action with
      | delete =>
        rw [ha, List.append_nil, List.append_left_inj] at h
        rw [LeavesAlone, nextHosts_eq, ha, List.append_nil]
        exact h.symm
      | set =>
        -- the last record would be that of both
        rw [ha] at h
        have hlast := (List.append_inj' h rfl).2
        have hsame : b.host = a.host := by simpa using hlast
        exact absurd (congrArg (fun h : DnsHost => recordKey h.type h.name) hsame).symm hkey

end Records

/-! ### Calls and their requests -/

/-- The two calls. -/
inductive Caller where
  | first
  | second
  deriving DecidableEq

/-- The other call. -/
def Caller.other : Caller → Caller
  | .first => .second
  | .second => .first

@[simp] theorem Caller.other_other (c : Caller) : c.other.other = c := by cases c <;> rfl

theorem Caller.other_ne (c : Caller) : c.other ≠ c := by cases c <;> decide

theorem Caller.eq_or_other (c d : Caller) : d = c ∨ d = c.other := by cases c <;> cases d <;> simp [Caller.other]

/-- A server that gives these answers, and no more. -/
def replay (answers : List Response) : Server := fun sent _ =>
  match answers[sent.length]? with
  | some response => .ok response
  | none => .error (.error (js "no answer yet"))

/-- The request that a call sends once it has been given these answers. -/
def nextRequest (config : NamecheapConfig) (input : DnsApplyInput) (answers : List Response) : Option Request :=
  (applyDnsRecord (fetchFrom (replay answers)) config input ⟨[]⟩).2.sent[answers.length]?

/-- The records of the domain, and the answers that the calls have been given. -/
structure Shared where
  zone : List DnsHost
  answers : Caller → List Response

section Calls

variable (config : NamecheapConfig) (sld tld : JsString)

/-- The server: a read is answered with the records as they are, a write replaces them. -/
inductive Serves : List DnsHost → Request → Response → List DnsHost → Prop where
  | getHosts (zone : List DnsHost) (response : Response) (hhosts : parseHosts response.text = zone)
      (hok : checkErrors response.text = .ok ()) : Serves zone (getHostsRequest config sld tld) response zone
  | setHosts (zone hosts : List DnsHost) (response : Response) (hok : checkErrors response.text = .ok ()) :
      Serves zone (setHostsRequest config sld tld hosts) response hosts

variable (input : Caller → DnsApplyInput)

/-- The next request of the call `c` is answered. -/
inductive Step (c : Caller) (s : Shared) : Shared → Prop where
  | mk (request : Request) (response : Response) (zone : List DnsHost)
      (hnext : nextRequest config (input c) (s.answers c) = some request)
      (hserves : Serves config sld tld s.zone request response zone) :
      Step c s ⟨zone, Function.update s.answers c (s.answers c ++ [response])⟩

/-- An interleaving of the requests: whose they are, in order. -/
inductive Run : List Caller → Shared → Shared → Prop where
  | nil (s : Shared) : Run [] s s
  | cons {c : Caller} {order : List Caller} {s s' s'' : Shared} (hstep : Step config sld tld input c s s')
      (hrun : Run order s' s'') : Run (c :: order) s s''

/-- Both calls have come to their end. -/
def Finished (s : Shared) : Prop := ∀ c, nextRequest config (input c) (s.answers c) = none

/-- Before the first request. -/
def Shared.start (zone : List DnsHost) : Shared := ⟨zone, fun _ => []⟩

/-! ### One request -/

/-- The call has sent nothing. -/
def Waiting (s : Shared) (c : Caller) : Prop := s.answers c = []

/-- The call has read these records. -/
def HasRead (s : Shared) (c : Caller) (hosts : List DnsHost) : Prop :=
  ∃ response, s.answers c = [response] ∧ parseHosts response.text = hosts ∧ checkErrors response.text = .ok ()

/-- The call has written. -/
def Written (s : Shared) (c : Caller) : Prop :=
  ∃ read written, s.answers c = [read, written] ∧ checkErrors read.text = .ok ()

/-- For the call `c`, the two states are the same. -/
def SameFor (c : Caller) (s s' : Shared) : Prop := s'.answers c = s.answers c

variable {config sld tld input} {s s' : Shared} {c : Caller} {hosts : List DnsHost}

theorem nextRequest_nil {inp : DnsApplyInput} (hzone : splitZone (registrableZone inp.zone) = .ok (sld, tld)) :
    nextRequest config inp [] = some (getHostsRequest config sld tld) := by
  simp [nextRequest, applyDnsRecord, getHosts, Act.bind_apply, Act.ofExcept, hzone, fetchFrom, replay]

theorem nextRequest_read {inp : DnsApplyInput} {read : Response} {rest : List Response}
    (hzone : splitZone (registrableZone inp.zone) = .ok (sld, tld)) (hok : checkErrors read.text = .ok ()) :
    nextRequest config inp (read :: rest) =
      [getHostsRequest config sld tld, setHostsRequest config sld tld (nextHosts inp (parseHosts read.text))][rest.length + 1]? := by
  have hfirst : replay (read :: rest) [] (getHostsRequest config sld tld) = .ok read := rfl
  rw [nextRequest, apply_of_ok hzone hfirst hok]
  rfl

section Steps

variable (hzone : ∀ c, splitZone (registrableZone (input c).zone) = .ok (sld, tld))

include hzone

/-- **The first request** of a call reads the records. -/
theorem Step.reads (hwait : Waiting s c) (hstep : Step config sld tld input c s s') :
    HasRead s' c s.zone ∧ s'.zone = s.zone ∧ SameFor c.other s s' := by
  obtain ⟨request, response, zone, hnext, hserves⟩ := hstep
  rw [hwait, nextRequest_nil (hzone c)] at hnext
  have hrequest : getHostsRequest config sld tld = request := Option.some.inj hnext
  cases hserves with
  | getHosts _ hhosts hok =>
    refine ⟨⟨response, ?_, hhosts, hok⟩, rfl, Function.update_of_ne (Caller.other_ne c) ..⟩
    show Function.update s.answers c _ c = _
    rw [Function.update_self, hwait, List.nil_append]
  | setHosts _ _ _ =>
    have hread := @getHostsRequest_not_isSetHosts config sld tld
    rw [hrequest] at hread
    exact absurd (setHostsRequest_isSetHosts _) hread

/-- **The second request** writes what the call makes of the records it has read. -/
theorem Step.writes (hread : HasRead s c hosts) (hstep : Step config sld tld input c s s') :
    Written s' c ∧ s'.zone = nextHosts (input c) hosts ∧ SameFor c.other s s' := by
  obtain ⟨read, hanswers, rfl, hok⟩ := hread
  obtain ⟨request, response, zone, hnext, hserves⟩ := hstep
  rw [hanswers, nextRequest_read (hzone c) hok] at hnext
  have hrequest : setHostsRequest config sld tld (nextHosts (input c) (parseHosts read.text)) = request :=
    Option.some.inj hnext
  cases hserves with
  | getHosts _ _ _ =>
    have hwrite := @setHostsRequest_isSetHosts config sld tld (nextHosts (input c) (parseHosts read.text))
    rw [hrequest] at hwrite
    exact absurd hwrite getHostsRequest_not_isSetHosts
  | setHosts _ _ _ =>
    refine ⟨⟨read, response, ?_, hok⟩, (setHostsRequest_inj hrequest).2.2.symm,
      Function.update_of_ne (Caller.other_ne c) ..⟩
    show Function.update s.answers c _ c = _
    rw [Function.update_self, hanswers]
    rfl

/-- There is no third. -/
theorem Step.not_written (hwritten : Written s c) : ¬ Step config sld tld input c s s' := by
  rintro ⟨request, response, zone, hnext, -⟩
  obtain ⟨read, written, hanswers, hok⟩ := hwritten
  rw [hanswers, nextRequest_read (hzone c) hok] at hnext
  cases hnext

theorem not_finished_of_waiting (hwait : Waiting s c) : ¬ Finished config input s := by
  intro hdone
  have hnext := hdone c
  rw [hwait, nextRequest_nil (hzone c)] at hnext
  cases hnext

theorem not_finished_of_read (hread : HasRead s c hosts) : ¬ Finished config input s := by
  intro hdone
  obtain ⟨read, hanswers, -, hok⟩ := hread
  have hnext := hdone c
  rw [hanswers, nextRequest_read (hzone c) hok] at hnext
  cases hnext

end Steps

theorem SameFor.waiting (h : SameFor c s s') (hwait : Waiting s c) : Waiting s' c := h.trans hwait

theorem SameFor.hasRead (h : SameFor c s s') (hread : HasRead s c hosts) : HasRead s' c hosts := by
  obtain ⟨response, hanswers, hrest⟩ := hread
  exact ⟨response, h.trans hanswers, hrest⟩

theorem SameFor.written (h : SameFor c s s') (hwritten : Written s c) : Written s' c := by
  obtain ⟨read, written, hanswers, hok⟩ := hwritten
  exact ⟨read, written, h.trans hanswers, hok⟩

/-! ### Every interleaving -/

section Runs

variable {order : List Caller} {final : Shared} (hzone : ∀ c, splitZone (registrableZone (input c).zone) = .ok (sld, tld))

include hzone

/-- Nothing is left to be sent. -/
theorem Run.of_written (hrun : Run config sld tld input order s final) (hwritten : ∀ c, Written s c) :
    order = [] ∧ final = s := by
  cases hrun with
  | nil => exact ⟨rfl, rfl⟩
  | cons hstep _ => exact absurd hstep (Step.not_written hzone (hwritten _))

/-- One call has read and the other is done. -/
theorem Run.last_write (hrun : Run config sld tld input order s final) (hdone : Finished config input final)
    (hread : HasRead s c hosts) (hwritten : Written s c.other) :
    order = [c] ∧ final.zone = nextHosts (input c) hosts := by
  cases hrun with
  | nil => exact absurd hdone (not_finished_of_read hzone hread)
  | @cons d order s s' _ hstep hrun =>
    rcases Caller.eq_or_other c d with rfl | rfl
    · obtain ⟨hw, hz, hsame⟩ := hstep.writes hzone hread
      have hall : ∀ e, Written s' e := fun e => by
        rcases Caller.eq_or_other d e with rfl | rfl
        · exact hw
        · exact hsame.written hwritten
      obtain ⟨rfl, rfl⟩ := hrun.of_written hzone hall
      exact ⟨rfl, hz⟩
    · exact absurd hstep (Step.not_written hzone hwritten)

/-- A call by itself. -/
theorem Run.alone (hrun : Run config sld tld input order s final) (hdone : Finished config input final)
    (hwait : Waiting s c) (hwritten : Written s c.other) :
    order = [c, c] ∧ final.zone = nextHosts (input c) s.zone := by
  cases hrun with
  | nil => exact absurd hdone (not_finished_of_waiting hzone hwait)
  | @cons d order s s' _ hstep hrun =>
    rcases Caller.eq_or_other c d with rfl | rfl
    · obtain ⟨hr, -, hsame⟩ := hstep.reads hzone hwait
      obtain ⟨rfl, hz⟩ := hrun.last_write hzone hdone hr (hsame.written hwritten)
      exact ⟨rfl, hz⟩
    · exact absurd hstep (Step.not_written hzone hwritten)

/-- Both have read: the later write stays. -/
theorem Run.both_read (hrun : Run config sld tld input order s final) (hdone : Finished config input final)
    (hread : ∀ c, HasRead s c hosts) :
    ∃ d : Caller, order = [d, d.other] ∧ final.zone = nextHosts (input d.other) hosts := by
  cases hrun with
  | nil => exact absurd hdone (not_finished_of_read hzone (hread .first))
  | @cons d order s s' _ hstep hrun =>
    obtain ⟨hw, -, hsame⟩ := hstep.writes hzone (hread d)
    have hw' : Written s' d.other.other := by rwa [Caller.other_other]
    obtain ⟨rfl, hz⟩ := hrun.last_write hzone hdone (hsame.hasRead (hread d.other)) hw'
    exact ⟨d, rfl, hz⟩

/-- **What an interleaving leaves.** One call after the other, or both have read the records before the first write and
the second write is all that is left. -/
theorem Run.outcome {zone : List DnsHost} (hrun : Run config sld tld input order (.start zone) final)
    (hdone : Finished config input final) :
    (∃ c : Caller, order = [c, c, c.other, c.other] ∧ final.zone = nextHosts (input c.other) (nextHosts (input c) zone)) ∨
      ∃ c d : Caller, order = [c, c.other, d, d.other] ∧ final.zone = nextHosts (input d.other) zone := by
  cases hrun with
  | nil => exact absurd hdone (not_finished_of_waiting hzone (show Waiting (.start zone) .first from rfl))
  | @cons c order _ s₁ _ hstep₁ hrun =>
    have hstart : ∀ d, Waiting (.start zone) d := fun _ => rfl
    obtain ⟨hr, hz₁, hsame₁⟩ := hstep₁.reads hzone (hstart c)
    have hwait : Waiting s₁ c.other := hsame₁.waiting (hstart c.other)
    cases hrun with
    | nil => exact absurd hdone (not_finished_of_waiting hzone hwait)
    | @cons d order _ s₂ _ hstep₂ hrun =>
      rcases Caller.eq_or_other c d with rfl | rfl
      · obtain ⟨hw, hz₂, hsame₂⟩ := hstep₂.writes hzone hr
        have hw' : Written s₂ d.other.other := by rwa [Caller.other_other]
        obtain ⟨rfl, hz⟩ := hrun.alone hzone hdone (hsame₂.waiting hwait) hw'
        exact .inl ⟨d, rfl, by rw [hz, hz₂]; rfl⟩
      · obtain ⟨hr', hz₂, hsame₂⟩ := hstep₂.reads hzone hwait
        rw [Caller.other_other] at hsame₂
        have hall : ∀ e, HasRead s₂ e zone := fun e => by
          rcases Caller.eq_or_other c e with rfl | rfl
          · exact hsame₂.hasRead hr
          · rw [hz₁] at hr'
            exact hr'
        obtain ⟨d, rfl, hz⟩ := hrun.both_read hzone hdone hall
        exact .inr ⟨c, d, rfl, hz⟩

variable (input) in
/-- The records that one call after the other leaves. -/
def Serial (zone final : List DnsHost) : Prop :=
  ∃ c : Caller, final = nextHosts (input c.other) (nextHosts (input c) zone)

/-- **When no update is lost.** For every interleaving of the requests of two changes with different keys: exactly when
one call was over before the other began, or the call that wrote first had nothing to change beside the records of
the other. -/
theorem serializable_iff {zone : List DnsHost} (hkey : (input .first).key ≠ (input .second).key)
    (hrun : Run config sld tld input order (.start zone) final) (hdone : Finished config input final) :
    Serial input zone final.zone ↔ (∃ c : Caller, order = [c, c, c.other, c.other]) ∨
      ∃ c d : Caller, order = [c, c.other, d, d.other] ∧ LeavesAlone (input d) (input d.other) zone := by
  have hkeys : ∀ d : Caller, (input d).key ≠ (input d.other).key := by
    intro d
    cases d with
    | first => exact hkey
    | second => exact hkey.symm
  -- with `d` first, the other order is `d` last
  have hserial : ∀ d : Caller, Serial input zone final.zone ↔
      final.zone = nextHosts (input d.other) (nextHosts (input d) zone) ∨
        final.zone = nextHosts (input d) (nextHosts (input d.other) zone) := by
    intro d
    constructor
    · rintro ⟨c, hc⟩
      rcases Caller.eq_or_other d c with rfl | rfl
      · exact .inl hc
      · rw [Caller.other_other] at hc
        exact .inr hc
    · rintro (h | h)
      · exact ⟨d, h⟩
      · exact ⟨d.other, by rw [Caller.other_other]; exact h⟩
  rcases hrun.outcome hzone hdone with ⟨c, horder, hz⟩ | ⟨c, d, horder, hz⟩
  · exact ⟨fun _ => .inl ⟨c, horder⟩, fun _ => ⟨c, hz⟩⟩
  · have hoverwrite : Serial input zone final.zone ↔ LeavesAlone (input d) (input d.other) zone := by
      rw [hserial d, hz]
      exact overwrite_iff (hkeys d)
    rw [hoverwrite]
    constructor
    · exact fun h => .inr ⟨c, d, horder, h⟩
    · rintro (⟨e, he⟩ | ⟨c', d', he, h⟩)
      · rw [horder, List.cons.injEq, List.cons.injEq] at he
        exact absurd (he.2.1.trans he.1.symm) (Caller.other_ne c)
      · rw [horder] at he
        simp only [List.cons.injEq] at he
        rw [he.2.2.1]
        exact h

end Runs

end Calls

/-! ### Two challenges -/

/-- The challenge records of two names. -/
def challenges : Caller → DnsApplyInput
  | .first => ⟨js "example.com", .set, ⟨js "TXT", js "_acme-challenge.a.example.com", js "v1", none⟩⟩
  | .second => ⟨js "example.com", .set, ⟨js "TXT", js "_acme-challenge.b.example.com", js "v2", none⟩⟩

theorem challenges_key : (challenges .first).key ≠ (challenges .second).key := by decide

theorem challenges_zone : ∀ c, splitZone (registrableZone (challenges c).zone) = .ok (js "example", js "com") := by
  intro c
  cases c <;> decide

/-- An answer without records and without an error. -/
def emptyAnswer : Response := ⟨true, 200, []⟩

/-- Both read the zone before either has written. -/
theorem overlapped_run : ∃ final,
    Run testConfig (js "example") (js "com") challenges [.first, .second, .first, .second] (.start []) final ∧
      Finished testConfig challenges final ∧ final.zone = [(challenges .second).host] := by
  have hok : checkErrors emptyAnswer.text = .ok () := by decide
  have hhosts : parseHosts emptyAnswer.text = [] := by decide
  have hreads := fun c => @nextRequest_nil testConfig _ _ (challenges c) (challenges_zone c)
  have hwrites := fun c rest => @nextRequest_read testConfig _ _ (challenges c) emptyAnswer rest (challenges_zone c) hok
  refine ⟨_, .cons (.mk _ emptyAnswer [] (hreads .first) (.getHosts [] emptyAnswer hhosts hok))
    (.cons (.mk _ emptyAnswer [] (hreads .second) (.getHosts [] emptyAnswer hhosts hok))
      (.cons (.mk _ emptyAnswer _ (hwrites .first []) (.setHosts [] _ emptyAnswer hok))
        (.cons (.mk _ emptyAnswer _ (hwrites .second []) (.setHosts _ _ emptyAnswer hok)) (.nil _)))), ?_, ?_⟩
  · intro c
    cases c with
    | first => exact hwrites .first [emptyAnswer]
    | second => exact hwrites .second [emptyAnswer]
  · rw [hhosts]
    rfl

/-- **The first record is lost.** Neither order of the two calls ends with this zone. -/
theorem challenge_lost : ∃ final,
    Run testConfig (js "example") (js "com") challenges [.first, .second, .first, .second] (.start []) final ∧
      Finished testConfig challenges final ∧ (challenges .first).key ≠ (challenges .second).key ∧
        ¬ Serial challenges [] final.zone := by
  obtain ⟨final, hrun, hdone, hzone⟩ := overlapped_run
  refine ⟨final, hrun, hdone, challenges_key, ?_⟩
  rintro ⟨c, hc⟩
  rw [hzone] at hc
  revert hc
  cases c <;> decide

/-- The same run, by the exact condition. -/
theorem challenge_not_serial : ∃ final,
    Run testConfig (js "example") (js "com") challenges [.first, .second, .first, .second] (.start []) final ∧
      (Serial challenges [] final.zone ↔
        (∃ c : Caller, [Caller.first, .second, .first, .second] = [c, c, c.other, c.other]) ∨
          ∃ c d : Caller, [Caller.first, .second, .first, .second] = [c, c.other, d, d.other] ∧
            LeavesAlone (challenges d) (challenges d.other) []) := by
  obtain ⟨final, hrun, hdone, -⟩ := overlapped_run
  exact ⟨final, hrun, serializable_iff challenges_zone challenges_key hrun hdone⟩

end Wanfw.Plugins.Namecheap
