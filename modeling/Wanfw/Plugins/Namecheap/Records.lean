import Wanfw.Js.Attributes
import Wanfw.Plugins.Namecheap

/-!
# Records on the wire

How records are written into a request, and how they are read from an answer. The
parameters of the records are numbered, so that none replaces another and the request
determines the records (`setHostsRequest_inj`). The reader knows no XML: a `host` tag
ends at the first `/` or `>` (`parseHosts_cons`, `parseHosts_dropped`), and an attribute
is what stands in quotes behind its name (`getAttr_eq`).
-/

namespace Wanfw.Plugins.Namecheap

open Wanfw.Js

/-! ### Writing -/

theorem setParam_new {params : List (JsString × JsString)} {k v : JsString} (h : ∀ p ∈ params, p.1 ≠ k) :
    setParam params k v = params ++ [(k, v)] := by
  rw [setParam, if_neg]
  rw [List.any_eq_true]
  rintro ⟨p, hp, heq⟩
  exact h p hp (by simpa using heq)

/-- The names of the parameters of a record, without their number. -/
def hostFields : List JsString := [js "HostName", js "RecordType", js "Address", js "TTL"]

/-- The parameters of one record. -/
def hostEntries (e : DnsHost × ℕ) : List (JsString × JsString) :=
  let n := natToString (e.2 + 1)
  [(js "HostName" ++ n, e.1.name), (js "RecordType" ++ n, e.1.type), (js "Address" ++ n, e.1.address),
    (js "TTL" ++ n, e.1.ttl)]

theorem natToString_inj {m n : ℕ} (h : natToString m = natToString n) : m = n := by
  rw [← digitsValue_natToString m, h, digitsValue_natToString]

theorem hostEntries_key {e : DnsHost × ℕ} {p : JsString × JsString} (hp : p ∈ hostEntries e) :
    ∃ field ∈ hostFields, p.1 = field ++ natToString (e.2 + 1) := by
  simp only [hostEntries, List.mem_cons, List.not_mem_nil, or_false] at hp
  rcases hp with rfl | rfl | rfl | rfl
  · exact ⟨_, by simp [hostFields], rfl⟩
  · exact ⟨_, by simp [hostFields], rfl⟩
  · exact ⟨_, by simp [hostFields], rfl⟩
  · exact ⟨_, by simp [hostFields], rfl⟩

/-- The first two units tell the fields apart. -/
theorem hostFields_take : ∀ field ∈ hostFields, 2 ≤ field.length ∧ ∀ field' ∈ hostFields,
    field.take 2 = field'.take 2 → field = field' := by
  decide +kernel

theorem numbered_inj {field field' : JsString} (hf : field ∈ hostFields) (hf' : field' ∈ hostFields) {m n : ℕ}
    (h : field ++ natToString (m + 1) = field' ++ natToString (n + 1)) : field = field' ∧ m = n := by
  have htake := congrArg (List.take 2) h
  rw [List.take_append_of_le_length (hostFields_take _ hf).1,
    List.take_append_of_le_length (hostFields_take _ hf').1] at htake
  obtain rfl := (hostFields_take _ hf).2 _ hf' htake
  have hn := natToString_inj (List.append_cancel_left h)
  exact ⟨rfl, by omega⟩

/-- The parameters of the records are added behind the others. -/
theorem foldl_hostEntries {es : List (DnsHost × ℕ)} {params : List (JsString × JsString)} (hnd : (es.map (·.2)).Nodup)
    (hnew : ∀ e ∈ es, ∀ p ∈ hostEntries e, ∀ q ∈ params, q.1 ≠ p.1) :
    es.foldl (fun ps e =>
      let n := natToString (e.2 + 1)
      setParam (setParam (setParam (setParam ps (js "HostName" ++ n) e.1.name) (js "RecordType" ++ n) e.1.type)
        (js "Address" ++ n) e.1.address) (js "TTL" ++ n) e.1.ttl) params = params ++ es.flatMap hostEntries := by
  induction es generalizing params with
  | nil => simp
  | cons e es ih =>
    have hne : ∀ field ∈ hostFields, ∀ field' ∈ hostFields, field ≠ field' →
        field ++ natToString (e.2 + 1) ≠ field' ++ natToString (e.2 + 1) :=
      fun field hf field' hf' hne h => hne (numbered_inj hf hf' h).1
    have hstep : setParam (setParam (setParam (setParam params (js "HostName" ++ natToString (e.2 + 1)) e.1.name)
        (js "RecordType" ++ natToString (e.2 + 1)) e.1.type) (js "Address" ++ natToString (e.2 + 1)) e.1.address)
        (js "TTL" ++ natToString (e.2 + 1)) e.1.ttl = params ++ hostEntries e := by
      have hold := hnew e List.mem_cons_self
      simp only [hostEntries, List.forall_mem_cons] at hold
      obtain ⟨h₁, h₂, h₃, h₄, -⟩ := hold
      rw [setParam_new h₁, setParam_new (k := js "RecordType" ++ _), setParam_new (k := js "Address" ++ _),
        setParam_new (k := js "TTL" ++ _)]
      · simp [hostEntries]
      · simp only [List.forall_mem_append, List.forall_mem_singleton]
        exact ⟨⟨⟨h₄, hne _ (by decide) _ (by decide) (by decide)⟩, hne _ (by decide) _ (by decide) (by decide)⟩,
          hne _ (by decide) _ (by decide) (by decide)⟩
      · simp only [List.forall_mem_append, List.forall_mem_singleton]
        exact ⟨⟨h₃, hne _ (by decide) _ (by decide) (by decide)⟩, hne _ (by decide) _ (by decide) (by decide)⟩
      · simp only [List.forall_mem_append, List.forall_mem_singleton]
        exact ⟨h₂, hne _ (by decide) _ (by decide) (by decide)⟩
    rw [List.map_cons, List.nodup_cons] at hnd
    rw [List.foldl_cons, List.flatMap_cons]
    dsimp only
    rw [hstep, ih hnd.2, List.append_assoc]
    intro e' he' p hp q hq
    rcases List.mem_append.mp hq with hq | hq
    · exact hnew e' (List.mem_cons_of_mem _ he') p hp q hq
    · intro heq
      obtain ⟨field, hf, hp⟩ := hostEntries_key hp
      obtain ⟨field', hf', hq⟩ := hostEntries_key hq
      rw [hp, hq] at heq
      apply hnd.1
      rw [(numbered_inj hf' hf heq).2]
      exact List.mem_map_of_mem he'

section Requests

variable {config : NamecheapConfig} {sld tld : JsString}

theorem commandParams_eq (command : JsString) :
    commandParams config command sld tld =
      baseParams config ++ [(js "Command", command), (js "SLD", sld), (js "TLD", tld)] := by
  rfl

/-- **What a write sends**: all the records, in order. -/
theorem setHostsRequest_params (hosts : List DnsHost) :
    (setHostsRequest config sld tld hosts).params =
      commandParams config (js "namecheap.domains.dns.setHosts") sld tld ++ hosts.zipIdx.flatMap hostEntries := by
  rw [setHostsRequest, hostParams]
  refine foldl_hostEntries ?_ ?_
  · rw [List.zipIdx_map_snd]
    exact List.nodup_range' 
  · intro e _ p hp q hq heq
    obtain ⟨field, hf, hp⟩ := hostEntries_key hp
    have hkeys : ∀ q ∈ commandParams config (js "namecheap.domains.dns.setHosts") sld tld,
        q.1 ∈ [js "ApiUser", js "ApiKey", js "UserName", js "ClientIp", js "Command", js "SLD", js "TLD"] := by
      rw [commandParams_eq]
      simp [baseParams]
    have htake : ∀ k ∈ [js "ApiUser", js "ApiKey", js "UserName", js "ClientIp", js "Command", js "SLD", js "TLD"],
        ∀ field ∈ hostFields, k.take 2 ≠ field.take 2 := by
      decide +kernel
    apply htake _ (hkeys q hq) field hf
    rw [heq, hp, List.take_append_of_le_length (hostFields_take _ hf).1]

theorem flatMap_hostEntries_inj {hosts hosts' : List DnsHost} {k : ℕ}
    (h : (hosts.zipIdx k).flatMap hostEntries = (hosts'.zipIdx k).flatMap hostEntries) : hosts = hosts' := by
  induction hosts generalizing hosts' k with
  | nil =>
    cases hosts' with
    | nil => rfl
    | cons x xs => simp [hostEntries] at h
  | cons y ys ih =>
    cases hosts' with
    | nil => simp [hostEntries] at h
    | cons x xs =>
      simp only [List.zipIdx_cons, List.flatMap_cons, hostEntries, List.cons_append, List.nil_append, List.cons.injEq,
        Prod.mk.injEq, true_and] at h
      obtain ⟨hname, htype, haddress, httl, h⟩ := h
      rw [ih h]
      cases x
      cases y
      simp_all

/-- The request determines the domain and the records. -/
theorem setHostsRequest_inj {sld' tld' : JsString} {hosts hosts' : List DnsHost}
    (h : setHostsRequest config sld tld hosts = setHostsRequest config sld' tld' hosts') :
    sld = sld' ∧ tld = tld' ∧ hosts = hosts' := by
  have hparams := congrArg Request.params h
  rw [setHostsRequest_params, setHostsRequest_params, commandParams_eq, commandParams_eq] at hparams
  have hcommand := List.append_cancel_left (List.append_inj_left hparams rfl)
  simp only [List.cons.injEq, Prod.mk.injEq, true_and, and_true] at hcommand
  exact ⟨hcommand.1, hcommand.2, flatMap_hostEntries_inj (List.append_inj_right hparams rfl)⟩

end Requests

/-! ### Reading an attribute -/

theorem getAttr_eq {attr : JsString} (h : 34 ∉ attr) (attrs : JsString) :
    getAttr attrs attr = (quotedValue (attr ++ js "=") (split attrs 34)).getD [] := by
  have hre : attrRe attr = Re.quoted (attr ++ js "=") := by
    rw [attrRe, Re.quoted, List.append_assoc]
    rfl
  rw [getAttr, hre, Re.exec_quoted]
  rw [List.mem_append, not_or]
  exact ⟨h, by decide⟩

/-! ### Reading a tag -/

/-- A unit that does not end a tag. -/
def inTag (u : UInt16) : Bool := u != 47 && u != 62

theorem anchorless_hostTagRe : hostTagRe.anchorless = true := by
  simp [hostTagRe, Re.seqs, Re.opt, Re.plus, Re.anchorless, Re.anchorless_lit, Re.anchorless_litI]

/-- What a match of the expression looks like. -/
theorem mem_run_hostTagRe {y : JsString} {m : Match} (h : m ∈ hostTagRe.run false y) :
    ∃ x sp a e, y = x ++ (sp ++ a ++ e ++ m.rest) ∧ x.map Re.lower = (js "<host").map Re.lower ∧ sp ≠ [] ∧
      (∀ u ∈ sp, isSpace u = true) ∧ (∀ u ∈ a, inTag u = true) ∧ (e = js ">" ∨ e = js "/>") ∧ m.text ≠ [] ∧
        m.group 1 = some a := by
  simp only [hostTagRe, Re.seqs] at h
  obtain ⟨⟨x, r₁, g₁⟩, h₁, n₁, h', rfl⟩ := Re.mem_run_seq.mp h
  obtain ⟨rfl, hx, hg₁⟩ := Re.mem_run_litI.mp h₁
  obtain ⟨m₂, h₂, n₂, h₃, rfl⟩ := Re.mem_run_seq.mp h'
  obtain ⟨m₅, h₅, ⟨sp, r₆, g₆⟩, h₆, rfl⟩ := Re.mem_run_seq.mp h₂
  obtain ⟨u, hu, hr₁, hm₅⟩ := Re.mem_run_cls.mp h₅
  obtain ⟨hg₆, hs, hsp⟩ := Re.mem_run_star.mp h₆
  obtain ⟨m₃, hgroup, n₃, h₄, rfl⟩ := Re.mem_run_seq.mp h₃
  obtain ⟨⟨a, r₃, g₃⟩, hstar, rfl⟩ := Re.mem_run_group.mp hgroup
  obtain ⟨hg₃, hr₃, ha⟩ := Re.mem_run_star.mp hstar
  obtain ⟨m₄, hopt, n₄, hend, rfl⟩ := Re.mem_run_seq.mp h₄
  rw [Re.run_seq_eps] at hend
  obtain ⟨hr₄, -⟩ := Re.mem_run_lit.mp hend
  obtain ⟨e', hr, he'⟩ : ∃ e', r₃ = e' ++ m₄.rest ∧ (e' = [] ∨ e' = js "/") := by
    rcases Re.mem_run_alt.mp hopt with hslash | heps
    · exact ⟨js "/", (Re.mem_run_lit.mp hslash).1, .inr rfl⟩
    · rw [Re.run, List.mem_singleton] at heps
      exact ⟨[], by rw [heps]; rfl, .inl rfl⟩
  refine ⟨x, u :: sp, a, e' ++ js ">", ?_, hx, by simp, ?_, ha, ?_, ?_, ?_⟩
  · simp only [Match.append, Match.capture] at hr₁ hs hr₃ hr₄ ⊢
    rw [hr₁, hs, hr₃, hr, hr₄]
    simp
  · intro v hv
    rcases List.mem_cons.mp hv with rfl | hv
    · exact hu
    · exact hsp v hv
  · rcases he' with rfl | rfl
    · exact .inl rfl
    · exact .inr rfl
  · rw [Match.append]
    intro hnil
    rw [(List.append_eq_nil_iff.mp hnil).1] at hx
    revert hx
    decide
  · have hg₅ := congrArg Match.groups hm₅
    simp only at hg₁ hg₆ hg₃ hg₅
    simp [Match.group, Match.append, Match.capture, hg₁, hg₆, hg₃, hg₅]

theorem proper_hostTagRe : hostTagRe.Proper := by
  intro s m hm
  obtain ⟨_, _, _, _, _, _, _, _, _, _, hne, -⟩ := mem_run_hostTagRe hm
  exact hne

section Tag

variable {a e z : JsString}

theorem dropWhile_isSpace (hspace : ∀ u ∈ a.head?, isSpace u = false) (he : e = js ">" ∨ e = js "/>") :
    (a ++ (e ++ z)).takeWhile isSpace = [] ∧ (a ++ (e ++ z)).dropWhile isSpace = a ++ (e ++ z) := by
  obtain ⟨u, w, hew, hu⟩ : ∃ u w, a ++ (e ++ z) = u :: w ∧ isSpace u = false := by
    cases a with
    | nil =>
      rcases he with rfl | rfl
      · exact ⟨62, z, rfl, rfl⟩
      · exact ⟨47, 62 :: z, rfl, rfl⟩
    | cons u a => exact ⟨u, a ++ (e ++ z), rfl, hspace u (by simp)⟩
  rw [hew, List.takeWhile_cons_of_neg (by simp [hu]), List.dropWhile_cons_of_neg (by simp [hu])]
  exact ⟨rfl, rfl⟩

theorem dropWhile_inTag (ha : ∀ u ∈ a, inTag u = true) (he : e = js ">" ∨ e = js "/>") :
    (a ++ (e ++ z)).takeWhile inTag = a ∧ (a ++ (e ++ z)).dropWhile inTag = e ++ z := by
  obtain ⟨u, w, hew, hu⟩ : ∃ u w, e ++ z = u :: w ∧ inTag u = false := by
    rcases he with rfl | rfl
    · exact ⟨62, z, rfl, rfl⟩
    · exact ⟨47, 62 :: z, rfl, rfl⟩
  rw [List.takeWhile_append_of_pos ha, List.dropWhile_append_of_pos ha, hew, List.takeWhile_cons_of_neg (by simp [hu]),
    List.dropWhile_cons_of_neg (by simp [hu]), List.append_nil]
  exact ⟨rfl, rfl⟩

/-- A tag whose attributes have no `/` and no `>` is read to its end. -/
theorem head?_run_hostTagRe (hspace : ∀ u ∈ a.head?, isSpace u = false) (ha : ∀ u ∈ a, inTag u = true)
    (he : e = js ">" ∨ e = js "/>") :
    (hostTagRe.run false (js "<host " ++ (a ++ (e ++ z)))).head? = some ⟨js "<host " ++ (a ++ e), z, [(1, a)]⟩ := by
  have hlit : ((Re.litI (js "<host")).run false (js "<host " ++ (a ++ (e ++ z)))).head? =
      some ⟨js "<host", 32 :: (a ++ (e ++ z)), []⟩ := rfl
  have hplus : ((Re.plus isSpace).run false (32 :: (a ++ (e ++ z)))).head? = some ⟨[32], a ++ (e ++ z), []⟩ := by
    have hstar : ((Re.star true isSpace).run false (a ++ (e ++ z))).head? = _ := Re.head?_run_star isSpace
    rw [(dropWhile_isSpace hspace he).1, (dropWhile_isSpace hspace he).2] at hstar
    have hcls : ((Re.cls isSpace).run false (32 :: (a ++ (e ++ z)))).head? = some ⟨[32], a ++ (e ++ z), []⟩ := rfl
    exact Re.head?_run_seq hcls hstar
  have hattrs : ((Re.group 1 (.star true fun u => u != 47 && u != 62)).run false (a ++ (e ++ z))).head? =
      some ⟨a, e ++ z, [(1, a)]⟩ := by
    have hstar : ((Re.star true inTag).run false (a ++ (e ++ z))).head? = _ := Re.head?_run_star inTag
    rw [(dropWhile_inTag ha he).1, (dropWhile_inTag ha he).2] at hstar
    exact Re.head?_run_group hstar
  have hend : ((Re.seqs [.opt (.lit (js "/")), .lit (js ">")]).run false (e ++ z)).head? = some ⟨e, z, []⟩ := by
    rcases he with rfl | rfl
    · rfl
    · rfl
  exact Re.head?_run_seq hlit (Re.head?_run_seq hplus (Re.head?_run_seq hattrs hend))

/-! ### Reading an answer -/

/-- A tag that is read to its end is a record. -/
theorem parseHosts_cons (hspace : ∀ u ∈ a.head?, isSpace u = false) (ha : ∀ u ∈ a, inTag u = true)
    (he : e = js ">" ∨ e = js "/>") :
    parseHosts (js "<host " ++ (a ++ (e ++ z))) = hostOfAttrs a :: parseHosts z := by
  have hsearch : hostTagRe.search false (js "<host " ++ (a ++ (e ++ z))) =
      some ([], ⟨js "<host " ++ (a ++ e), z, [(1, a)]⟩) := by
    rw [show js "<host " ++ (a ++ (e ++ z)) = 60 :: (js "host " ++ (a ++ (e ++ z))) from rfl, Re.search,
      show 60 :: (js "host " ++ (a ++ (e ++ z))) = js "<host " ++ (a ++ (e ++ z)) from rfl,
      head?_run_hostTagRe hspace ha he]
  rw [parseHosts, Re.scan_of_search anchorless_hostTagRe proper_hostTagRe hsearch, List.map_cons]
  rfl

theorem parseHosts_nil : parseHosts [] = [] := rfl

end Tag

end Wanfw.Plugins.Namecheap
