import Wanfw.Orchestrator.Containment
import Wanfw.Orchestrator.Renewal

/-!
# RENEWAL over what plugins have stored

RENEWAL and OBSERVE read the metadata of the current certificate back from the file that `certs.store` has written,
and take `names` for an array of texts. `certs.store` writes whatever it is sent, under any name.

`StoreInv` is what the calls of `certs.store` keep when their names and metadata do no harm (`Harmless`):
every pointer is a file, the renewal state can be written, and the metadata of the wildcard certificate can be read.
`renewal_returns`: after any such calls RENEWAL returns, whatever the issuer answers and stores meanwhile, and OBSERVE
projects the expiry of the certificate for every host name.
-/

namespace Wanfw.Orchestrator.CertRenewal

open Wanfw.Js Wanfw.Store Certs Containment

/-! ### The source -/

/-- `entry?.meta`, as far as RENEWAL and OBSERVE read it. `storeCert` always sets `storedAt` to a text. -/
def certMetaOf : Value → Option CertMeta
  | some (.obj o) =>
    match Obj.get o (js "storedAt") with
    | some (.str s) => if h : s = [] then none else some ⟨s, Obj.get o (js "names"), h⟩
    | _ => none
  | _ => none

/-- `meta.names.includes(hostname)`. -/
def includesName (names : Value) (hostname : JsString) : Except JsError Bool :=
  match names with
  | some (.arr xs) => .ok (xs.any fun x => x.strictEq (.str hostname))
  | some (.str s) => .ok (includesText s hostname)
  | none => .error (.typeError (js "Cannot read properties of undefined (reading 'includes')"))
  | some .null => .error (.typeError (js "Cannot read properties of null (reading 'includes')"))
  | some _ => .error (.typeError (js "meta.names.includes is not a function"))

/-- `projectCertNotAfter`, for names as they were stored. -/
def projectStored (env : Env) (hostname : Option JsString) (certMeta : Option CertMeta) : Except JsError Json :=
  match truthy hostname, certMeta with
  | some host, some m => do
    if ← includesName m.names host then
      match env.parseDate m.storedAt with
      | some t => return .str (env.toISOString (t + certLifetimeMs))
      | none => throw (.error (js "Invalid time value"))
    else return .null
  | _, _ => return .null

/-- The arguments of a call of `certs.store`, as they come. -/
structure StoreCall where
  name : Value
  certPem : Value
  keyPem : Value
  certMeta : Value

/-- What the issuer does in a reconcile. -/
structure Issuing where
  certIssuer : Option JsString
  /-- What is stored while `cert.ensure` runs. -/
  calls : List StoreCall
  answer : Answer Unit

section Source

variable (P : Process) (dataRoot : JsString)

/-- `certs.store`, behind the check of the grants. What it throws goes back to the plugin. -/
def StoreCall.run (c : StoreCall) : Act Certs.Volume Unit :=
  Act.tryCatch (do
    let _ ← storeCert P (certsDir dataRoot) c.name c.certPem c.keyPem (c.certMeta.coalesce (.obj []))
    return ()) fun _ => return ()

/-- Calls, one after the other. -/
def runCalls (calls : List StoreCall) : Act Certs.Volume Unit := Act.forEach calls (StoreCall.run P dataRoot)

/-- `readCertMeta` of `main.ts`. -/
def readCertMeta (localeCompare : JsString → JsString → ℤ) (name : JsString) : Act Certs.Volume (Option CertMeta) := do
  let entries ← listCerts P (certsDir dataRoot) localeCompare
  return (entries.find? fun c => c.name == name).bind fun entry => certMetaOf entry.certMeta

/-- What `main.ts` gives to RENEWAL. -/
def renewalDeps (env : Env) (r : Issuing) : RenewalDeps Certs.Volume where
  certIssuer := pure r.certIssuer
  invokePlugin _ _ _ := do
    runCalls P dataRoot r.calls
    return r.answer
  readRenewalState := readRenewalState (certsDir dataRoot) wildcardCertName
  writeRenewalState := writeRenewalState P (certsDir dataRoot) wildcardCertName
  readCertMeta := readCertMeta P dataRoot env.localeCompare wildcardCertName
  onCertChange := pure ()
  now := readNow P
  degrade _ := pure ()

/-- What OBSERVE has of the certificate for a host name. -/
def observeCert (env : Env) (hostname : Option JsString) : Act Certs.Volume Json := do
  let certMeta ← readCertMeta P dataRoot env.localeCompare wildcardCertName
  Act.ofExcept (projectStored env hostname certMeta)

/-- RENEWAL returns, and OBSERVE has something of the certificate for every host name afterwards. -/
def GoesOn (env : Env) (r : Issuing) (names : List JsString) (zone : Option JsString) (v : Certs.Volume) : Prop :=
  (renewalRun env (renewalDeps P dataRoot env r) names zone v).1 = .ok none ∧
    ∀ hostname, ∃ doc,
      (observeCert P dataRoot env hostname (renewalRun env (renewalDeps P dataRoot env r) names zone v).2).1 = .ok doc

end Source

/-! ### Names and metadata that do no harm -/

/-- Names that RENEWAL and OBSERVE can read: a text, or items that each have a text. -/
def Readable (names : Value) : Prop :=
  (∃ s, names = some (.str s)) ∨ ∃ xs, names = some (.arr xs) ∧ ∀ x ∈ xs, ∃ t, Value.jsonToText x = .ok t

/-- `{ ...meta }.names`. -/
def namesOf (certMeta : Json) : Value := Obj.get (Obj.spread [] (Value.ownProps (some certMeta))) (js "names")

section Harmless

variable (cwd : List JsString) (dataRoot : JsString)

/-- The directory of the wildcard certificate. -/
def wildcardRoot : List JsString := certsRoot cwd dataRoot ++ [wildcardCertName]

/-- A place whose directory gets in the way of no other: not of the pointer of a certificate, not of the renewal state of
the wildcard certificate, and not of the directory of the certificates. -/
structure Aside (place : List JsString) : Prop where
  pointer : ∀ x, ¬ certsRoot cwd dataRoot ++ [x, js "current"] <+: place
  state : ∀ e, startsWith e (js "renewal-state.json") = true → ¬ wildcardRoot cwd dataRoot ++ [e] <+: place
  above : ∀ e rest, certsRoot cwd dataRoot = place ++ e :: rest →
    startsWith e (js "gen-") = false ∧ startsWith e (js "current") = false

/-- A call that does no harm: where it stores is aside, and names of the wildcard certificate can be read. -/
structure Harmless (c : StoreCall) : Prop where
  place : ∀ name, c.name = some (.str name) → Aside cwd dataRoot (resolved cwd (nameDir (certsDir dataRoot) name))
  names : ∀ name, c.name = some (.str name) →
    resolved cwd (nameDir (certsDir dataRoot) name) = wildcardRoot cwd dataRoot → Readable (namesOf (c.certMeta.coalesce (.obj [])))

end Harmless

/-! ### What the calls keep -/

section Invariant

variable {P : Process} {cwd : List JsString} {dataRoot : JsString} {t t' : Tree} {place : List JsString} {e e' : JsString}

/-- Metadata as `storeCert` writes it, with names that can be read. -/
def Described (P : Process) (c : Content) : Prop :=
  ∃ certMeta k, c = .json (Certs.storedMeta certMeta (P.toISOString (P.clock k))) ∧ Readable (namesOf certMeta)

variable (P cwd dataRoot) in
/-- **The store**, as RENEWAL needs it. -/
structure StoreInv (t : Tree) : Prop where
  root : t.node (certsRoot cwd dataRoot) = some .dir
  entries : ∀ x, t.node (certsRoot cwd dataRoot ++ [x]) ≠ none → Normal.IsName x
  pointer : ∀ x, t.node (certsRoot cwd dataRoot ++ [x, js "current"]) ≠ some .dir
  state : ∀ x, startsWith x (js "renewal-state.json") = true → t.node (wildcardRoot cwd dataRoot ++ [x]) ≠ some .dir
  wildcard : ∀ c, t.node (wildcardRoot cwd dataRoot) ≠ some (.file c)
  metas : ∀ n c, t.node (wildcardRoot cwd dataRoot ++ [genName n, js "meta.json"]) = some (.file c) → Described P c

/-- An entry that `storeCert` makes. -/
def Made (e : JsString) : Prop := startsWith e (js "gen-") = true ∨ startsWith e (js "current") = true

/-- What is made at a place aside lies below the certificates only where the place does. -/
theorem Aside.below (h : Aside cwd dataRoot place) (he : Made e) {rest rest' : List JsString}
    (hpre : place ++ e :: rest' <+: certsRoot cwd dataRoot ++ rest) :
    ∃ mid, place = certsRoot cwd dataRoot ++ mid ∧ mid ++ e :: rest' <+: rest := by
  have hplace : place <+: certsRoot cwd dataRoot ++ rest := (List.prefix_append _ _).trans hpre
  rcases List.prefix_or_prefix_of_prefix hplace (List.prefix_append _ rest) with hup | ⟨mid, rfl⟩
  · obtain ⟨down, hdown⟩ := hup
    cases down with
    | nil =>
      refine ⟨[], by rw [List.append_nil, ← hdown, List.append_nil], ?_⟩
      rw [← hdown, List.append_nil, List.prefix_append_right_inj] at hpre
      exact hpre
    | cons x down =>
      rw [← hdown, List.append_assoc, List.prefix_append_right_inj, List.cons_append, List.cons_prefix_cons] at hpre
      obtain ⟨rfl, -⟩ := hpre
      obtain ⟨hgen, hcurrent⟩ := h.above _ _ hdown.symm
      rcases he with he | he
      · rw [hgen] at he
        cases he
      · rw [hcurrent] at he
        cases he
  · refine ⟨mid, rfl, ?_⟩
    rwa [List.append_assoc, List.prefix_append_right_inj] at hpre

/-- What is made at a place aside lies on no other way below the certificates. -/
theorem Aside.mem (h : Aside cwd dataRoot place) (he : Made e) {rest rest' : List JsString}
    (hpre : place ++ e :: rest' <+: certsRoot cwd dataRoot ++ rest) : e ∈ rest := by
  obtain ⟨mid, -, hmid⟩ := h.below he hpre
  exact hmid.subset (List.mem_append_right _ List.mem_cons_self)

/-- No entry that `storeCert` makes is one of the other names that matter. -/
theorem Made.not_plain (he : Made e) : e ≠ wildcardCertName ∧ e ≠ js "meta.json" ∧ startsWith e (js "renewal-state.json") = false := by
  have hfirst : ∀ {s : JsString}, startsWith e s = true → e.take s.length = s := by
    intro s h
    obtain ⟨rest, rfl⟩ := startsWith_iff.mp h
    exact List.take_left
  have hstart : e.take 1 = js "g" ∨ e.take 1 = js "c" := by
    rcases he with he | he
    · have h := congrArg (List.take 1) (hfirst he)
      rw [List.take_take] at h
      exact .inl h
    · have h := congrArg (List.take 1) (hfirst he)
      rw [List.take_take] at h
      exact .inr h
  refine ⟨?_, ?_, ?_⟩
  · rintro rfl
    revert hstart
    decide
  · rintro rfl
    revert hstart
    decide
  · by_contra h
    have h := congrArg (List.take 1) (hfirst ((Bool.not_eq_false _).mp h))
    rw [List.take_take] at h
    rw [show e.take (min 1 (js "renewal-state.json").length) = e.take 1 from rfl] at h
    rw [h] at hstart
    revert hstart
    decide

theorem Made.not_state {x : JsString} (he : Made e) (hx : startsWith x (js "renewal-state.json") = true) :
    ¬ (e = wildcardCertName ∨ e = x) := by
  rintro (rfl | rfl)
  · exact he.not_plain.1 rfl
  · rw [he.not_plain.2.2] at hx
    cases hx

variable (cwd dataRoot) in
/-- Where names below the certificates come from. -/
def Named (place : List JsString) : Prop := ∀ x rest, place = certsRoot cwd dataRoot ++ x :: rest → Normal.IsName x

/-- Making a temporary directory. -/
theorem StoreInv.mkdirp (h : StoreInv P cwd dataRoot t) (haside : Aside cwd dataRoot place) (hnamed : Named cwd dataRoot place)
    (he : startsWith e (js "gen-") = true) (hname : Normal.IsName e) (hmk : t.mkdirp (place ++ [e]) = some t') :
    StoreInv P cwd dataRoot t' := by
  have hnode := FileTree.node_mkdirp hmk
  have hmade : Made e := .inl he
  have hcurrent : e ≠ js "current" := by
    rintro rfl
    revert he
    decide
  -- what leads down to the new directory leads down to the place, or is the new directory
  have hdown : ∀ {p : List JsString} {x : JsString}, p ++ [x] <+: place ++ [e] → p ++ [x] <+: place ∨ p = place ∧ x = e := by
    intro p x hpre
    rcases List.prefix_concat_iff.mp hpre with heq | hpre
    · exact .inr (List.append_inj' heq rfl |>.imp id List.singleton_inj.mp)
    · exact .inl hpre
  refine ⟨?_, fun x hx => ?_, fun x => ?_, fun x hx => ?_, fun c => ?_, fun n c hc => ?_⟩
  · rw [hnode, h.root]
    split <;> rfl
  · rw [hnode] at hx
    split at hx
    · rename_i hpre
      rcases hdown hpre with ⟨rest, hrest⟩ | ⟨-, rfl⟩
      · exact hnamed x rest (by rw [← hrest, List.append_assoc]; rfl)
      · exact hname
    · exact h.entries x hx
  · rw [hnode, if_neg]
    · exact h.pointer x
    · intro hpre
      rw [show certsRoot cwd dataRoot ++ [x, js "current"] = certsRoot cwd dataRoot ++ [x] ++ [js "current"] by simp] at hpre
      rcases hdown hpre with hpre | ⟨-, heq⟩
      · exact haside.pointer x (by rwa [List.append_assoc] at hpre)
      · exact hcurrent heq.symm
  · rw [hnode, if_neg]
    · exact h.state x hx
    · intro hpre
      rcases hdown hpre with hpre | ⟨-, rfl⟩
      · exact haside.state x hx hpre
      · rw [hmade.not_plain.2.2] at hx
        cases hx
  · rw [hnode]
    split
    · simp
    · exact h.wildcard c
  · rw [hnode] at hc
    split at hc
    · cases hc
    · exact h.metas n c hc

/-- Writing a file, not into a generation. -/
theorem StoreInv.writeFile (h : StoreInv P cwd dataRoot t) (haside : Aside cwd dataRoot place) (he : Made e)
    (hgen : ∀ n, e ≠ genName n) (hname : Normal.IsName e) {rest : List JsString} {c : Content}
    (hw : t.writeFile (place ++ e :: rest) c = some t') : StoreInv P cwd dataRoot t' := by
  have hnode := FileTree.node_writeFile hw
  have hother : ∀ {p : List JsString}, p ≠ place ++ e :: rest → t'.node p = t.node p := fun hp => by rw [hnode, if_neg hp]
  have hmem : ∀ {p : List JsString}, certsRoot cwd dataRoot ++ p = place ++ e :: rest → e ∈ p :=
    fun hp => haside.mem he (by rw [hp])
  refine ⟨?_, fun x hx => ?_, fun x => ?_, fun x hx => ?_, fun c => ?_, fun n c hc => ?_⟩
  · rw [hother, h.root]
    intro heq
    exact List.not_mem_nil (hmem (p := []) (by rwa [List.append_nil]))
  · by_cases heq : certsRoot cwd dataRoot ++ [x] = place ++ e :: rest
    · rw [← List.mem_singleton.mp (hmem heq)]
      exact hname
    · rw [hother heq] at hx
      exact h.entries x hx
  · rw [hnode]
    split
    · simp
    · exact h.pointer x
  · rw [hnode]
    split
    · simp
    · exact h.state x hx
  · rw [hother]
    · exact h.wildcard c
    · exact fun heq => he.not_plain.1 (List.mem_singleton.mp (hmem heq))
  · rw [hother] at hc
    · exact h.metas n c hc
    · intro heq
      rw [wildcardRoot, List.append_assoc] at heq
      have hmem := hmem heq
      simp only [List.cons_append, List.nil_append, List.mem_cons, List.not_mem_nil, or_false] at hmem
      rcases hmem with rfl | rfl | rfl
      · exact he.not_plain.1 rfl
      · exact hgen n rfl
      · exact he.not_plain.2.1 rfl

/-- Putting what was made in its place: what becomes a pointer is a file, and the metadata that comes into a generation of
the wildcard certificate can be read. -/
theorem StoreInv.rename (h : StoreInv P cwd dataRoot t) (haside : Aside cwd dataRoot place) (he : Made e) (he' : Made e')
    (hname : Normal.IsName e') (hfile : e' = js "current" → t.node (place ++ [e]) ≠ some .dir)
    (hmeta : place = wildcardRoot cwd dataRoot → ∀ c, t.node (place ++ [e, js "meta.json"]) = some (.file c) → Described P c)
    (hr : t.rename (place ++ [e]) (place ++ [e']) = some t') : StoreInv P cwd dataRoot t' := by
  have hnode := FileTree.node_rename hr
  have hmem : ∀ {d : JsString} {p : List JsString}, Made d → place ++ [d] <+: certsRoot cwd dataRoot ++ p → d ∈ p :=
    fun hd hp => haside.mem hd hp
  -- a place that is none of the moved ones
  have hstays : ∀ {p : List JsString}, e ∉ p → e' ∉ p → t'.node (certsRoot cwd dataRoot ++ p) = t.node (certsRoot cwd dataRoot ++ p) := by
    intro p hp hp'
    rw [hnode, if_neg fun hpre => hp' (hmem he' hpre), if_neg fun hpre => hp (hmem he hpre)]
  refine ⟨?_, fun x hx => ?_, fun x => ?_, fun x hx => ?_, fun c => ?_, fun n c hc => ?_⟩
  · have hroot := hstays (p := []) List.not_mem_nil List.not_mem_nil
    rw [List.append_nil] at hroot
    rw [hroot, h.root]
  · rw [hnode] at hx
    split at hx
    · rename_i hpre
      rw [← List.mem_singleton.mp (hmem he' hpre)]
      exact hname
    · split at hx
      · exact absurd rfl hx
      · exact h.entries x hx
  · rw [hnode]
    split
    · rename_i hpre
      obtain ⟨mid, hplace, hmid⟩ := haside.below he' hpre
      cases mid with
      | nil =>
        -- the directory of a certificate is moved
        obtain ⟨rfl, -⟩ := List.cons_prefix_cons.mp hmid
        rw [List.append_nil] at hplace
        rw [hplace, List.append_cons (certsRoot cwd dataRoot) e' [js "current"], List.drop_left, List.append_assoc]
        exact h.pointer e
      | cons y mid =>
        -- the pointer is moved
        obtain ⟨rfl, hlast⟩ := List.cons_prefix_cons.mp hmid
        have hnil : mid = [] := List.eq_nil_of_length_eq_zero (by simpa using hlast.length_le)
        subst hnil
        obtain ⟨rfl, -⟩ := List.cons_prefix_cons.mp hlast
        rw [hplace, List.append_cons (certsRoot cwd dataRoot) y [js "current"], List.drop_length, List.append_nil, ← hplace]
        exact hfile rfl
    · split
      · simp
      · exact h.pointer x
  · rw [wildcardRoot, List.append_assoc, hstays]
    · rw [← List.append_assoc]
      exact h.state x hx
    · exact fun hmem => he.not_state hx (List.mem_pair.mp hmem)
    · exact fun hmem => he'.not_state hx (List.mem_pair.mp hmem)
  · rw [wildcardRoot, hstays]
    · exact h.wildcard c
    · exact fun hmem => he.not_plain.1 (List.mem_singleton.mp hmem)
    · exact fun hmem => he'.not_plain.1 (List.mem_singleton.mp hmem)
  · rw [hnode] at hc
    split at hc
    · rename_i hpre
      rw [wildcardRoot, List.append_assoc] at hpre
      obtain ⟨mid, hplace, hmid⟩ := haside.below he' hpre
      rcases mid with - | ⟨y, - | ⟨z, mid⟩⟩
      · exact absurd (List.cons_prefix_cons.mp hmid).1 he'.not_plain.1
      · obtain ⟨rfl, hlast⟩ := List.cons_prefix_cons.mp hmid
        obtain ⟨rfl, -⟩ := List.cons_prefix_cons.mp hlast
        change place = wildcardRoot cwd dataRoot at hplace
        rw [← hplace, List.append_cons place (genName n) [js "meta.json"], List.drop_left, List.append_assoc] at hc
        exact hmeta hplace c hc
      · have hlast := (List.cons_prefix_cons.mp (List.cons_prefix_cons.mp hmid).2).2
        have hnil : mid = [] := List.eq_nil_of_length_eq_zero (by simpa using hlast.length_le)
        subst hnil
        exact absurd (List.cons_prefix_cons.mp hlast).1 he'.not_plain.2.1
    · split at hc
      · cases hc
      · exact h.metas n c hc

/-- Removing a generation. -/
theorem StoreInv.remove (h : StoreInv P cwd dataRoot t) (haside : Aside cwd dataRoot place) (he : Made e) :
    StoreInv P cwd dataRoot (t.remove (place ++ [e])) := by
  have hnode := FileTree.node_remove (t := t) (p := place ++ [e]) (by simp)
  refine ⟨?_, fun x hx => ?_, fun x => ?_, fun x hx => ?_, fun c => ?_, fun n c hc => ?_⟩
  · rw [hnode, if_neg, h.root]
    intro hpre
    have hmem : e ∈ ([] : List JsString) := haside.mem he (by rwa [List.append_nil])
    exact List.not_mem_nil hmem
  · rw [hnode] at hx
    split at hx
    · exact absurd rfl hx
    · exact h.entries x hx
  · rw [hnode]
    split
    · simp
    · exact h.pointer x
  · rw [hnode]
    split
    · simp
    · exact h.state x hx
  · rw [hnode]
    split
    · simp
    · exact h.wildcard c
  · rw [hnode] at hc
    split at hc
    · cases hc
    · exact h.metas n c hc

/-! ### The calls keep it -/

/-- The names of a joined path below the certificates are names. -/
theorem named_nameDir (name : JsString) : Named cwd dataRoot (resolved cwd (nameDir (certsDir dataRoot) name)) := by
  intro x rest hplace
  have hok : Normal.Ok false (relative name) := Normal.Ok.walk ⟨by simp, by simp⟩ fun s hs => (mem_split hs).1
  rw [nameDir, resolved_joinPath_climb cwd (certsDir_ne_nil dataRoot)] at hplace
  obtain ⟨-, hnames⟩ := climb_names_eq_iff.mp hplace
  refine hok.names x ?_
  rw [hnames]
  exact List.mem_append_right _ List.mem_cons_self

theorem isName_tmp (n : ℤ) (pid : ℕ) (now : ℤ) : Normal.IsName (genName n ++ tmpSuffix pid now) := by
  refine Normal.isName_of_length ?_ ?_
  · rw [List.length_append]
    exact Nat.lt_of_lt_of_le (length_tmpSuffix pid now) (Nat.le_add_left _ _)
  · rw [List.mem_append, not_or]
    exact ⟨(isName_genName n).2.2.2, slash_not_mem_tmpSuffix pid now⟩

theorem isName_tmpCurrent (pid : ℕ) (now : ℤ) : Normal.IsName (js "current" ++ tmpSuffix pid now) := by
  refine Normal.isName_of_length ?_ ?_
  · rw [List.length_append]
    exact Nat.lt_of_lt_of_le (length_tmpSuffix pid now) (Nat.le_add_left _ _)
  · rw [List.mem_append, not_or]
    exact ⟨isName_current.2.2.2, slash_not_mem_tmpSuffix pid now⟩

theorem startsWith_append {s t : JsString} (u : JsString) (h : startsWith s t = true) : startsWith (s ++ u) t = true := by
  obtain ⟨rest, rfl⟩ := startsWith_iff.mp h
  exact startsWith_iff.mpr ⟨rest ++ u, by rw [List.append_assoc]⟩

variable (P cwd dataRoot) in
/-- Runs that keep the store as RENEWAL needs it. -/
abbrev Sound (base : Certs.Tree) : Certs.Volume → Prop := Trail (fun _ _ => True) base cwd (StoreInv P cwd dataRoot)

variable {base : Certs.Tree} {name : JsString}

/-- A reading of the clock is one of its instants. -/
theorem readNow_instant {G : Certs.Tree → Prop} {E : JsError → Certs.Volume → Prop} :
    Act.Triple (Trail (fun _ _ => True) base cwd G) (readNow P)
      (fun now => Trail (fun _ _ => True) base cwd fun t => G t ∧ ∃ k, now = P.clock k) E :=
  fun v hv => ⟨hv.chain, hv.last, hv.cwd, hv.now, v.ticks, rfl⟩

/-- The pointer is written. -/
theorem sound_writeCurrentGeneration (n : ℤ) (haside : Aside cwd dataRoot (resolved cwd (nameDir (certsDir dataRoot) name))) :
    Act.Keeps (Sound P cwd dataRoot base) (writeCurrentGeneration P (certsDir dataRoot) name n) := by
  have hE : ∀ {G : Certs.Tree → Prop} (e : JsError) (v : Certs.Volume),
      Trail (fun _ _ => True) base cwd (fun t => StoreInv P cwd dataRoot t ∧ G t) v → Sound P cwd dataRoot base v :=
    fun _ _ hv => hv.imp And.left
  refine Act.Triple.bind Trail.readNow fun now => ?_
  obtain ⟨place, hplace⟩ : ∃ place, place = resolved cwd (nameDir (certsDir dataRoot) name) := ⟨_, rfl⟩
  rw [← hplace] at haside
  have htmp := resolved_tmpCurrent hplace.symm P.pid now
  have hpointer := resolved_current hplace.symm
  have hmade : Made (js "current" ++ tmpSuffix P.pid now) := .inr (startsWith_append _ (by decide))
  refine Act.Triple.bind (Q := fun _ => Trail (fun _ _ => True) base cwd fun t => StoreInv P cwd dataRoot t ∧
    t.node (place ++ [js "current" ++ tmpSuffix P.pid now]) ≠ some .dir) ?_ fun _ => ?_
  · refine Trail.writeFileSync (fun t t' h hw => ⟨trivial, ?_⟩) fun _ _ hv => hv
    rw [htmp] at hw
    refine ⟨h.writeFile haside hmade (scratch_pointer (P := P) P.pid now).ne_genName (isName_tmpCurrent _ _) hw, ?_⟩
    rw [FileTree.node_writeFile hw, if_pos rfl]
    simp
  · refine Trail.renameSync (fun t t' h hr => ⟨trivial, ?_⟩) hE
    rw [htmp, hpointer] at hr
    refine h.1.rename haside hmade (.inr (by decide)) isName_current (fun _ => h.2) (fun _ c hc => ?_) hr
    have hfile : t.node (place ++ [js "current" ++ tmpSuffix P.pid now]) = some .dir :=
      FileTree.dir_of_append (List.cons_ne_nil (js "meta.json") []) (by rw [List.append_assoc]; exact hc ▸ by simp)
    exact absurd hfile h.2

/-- **`certs.store` keeps the store sound**, for a place aside and names that can be read. -/
theorem sound_storeNamed (haside : Aside cwd dataRoot (resolved cwd (nameDir (certsDir dataRoot) name))) {certMeta : Json}
    (hnames : resolved cwd (nameDir (certsDir dataRoot) name) = wildcardRoot cwd dataRoot → Readable (namesOf certMeta))
    (certPem keyPem : Value) :
    Act.Keeps (Sound P cwd dataRoot base) (storeNamed P (certsDir dataRoot) name certPem keyPem certMeta) := by
  have hnamed : Named cwd dataRoot (resolved cwd (nameDir (certsDir dataRoot) name)) := named_nameDir name
  obtain ⟨place, hplace⟩ : ∃ place, place = resolved cwd (nameDir (certsDir dataRoot) name) := ⟨_, rfl⟩
  refine Act.Triple.bind kept_listGenerations fun gens => ?_
  refine Act.Triple.bind Trail.readNow fun now => ?_
  obtain ⟨n, hn⟩ : ∃ n, n = gens.getLast?.getD 0 + 1 := ⟨_, rfl⟩
  simp only [← hn]
  obtain ⟨tmp, htmp⟩ : ∃ tmp, tmp = genName n ++ tmpSuffix P.pid now := ⟨_, rfl⟩
  have hgen : startsWith tmp (js "gen-") = true := by
    rw [htmp]
    exact startsWith_append _ (startsWith_genName n)
  have hname : Normal.IsName tmp := by
    rw [htmp]
    exact isName_tmp n P.pid now
  have hscratch : ∀ m, tmp ≠ genName m := by
    rw [htmp]
    exact (scratch_tmpDir (P := P) n P.pid now).ne_genName
  have hdir : resolved cwd (genDir (certsDir dataRoot) name n ++ tmpSuffix P.pid now) = place ++ [tmp] := by
    rw [resolved_tmpDir hplace.symm, htmp]
  have hfile : ∀ file, Normal.IsName file →
      resolved cwd (joinPath (genDir (certsDir dataRoot) name n ++ tmpSuffix P.pid now) file) = place ++ tmp :: [file] := by
    intro file hfile
    rw [resolved_tmpFile hplace.symm n P.pid now hfile, htmp]
  rw [← hplace] at haside hnamed hnames
  refine Act.Triple.bind (Q := fun _ => Sound P cwd dataRoot base) ?_ fun _ => ?_
  · refine Trail.mkdirSync (fun t t' _ h hmk => ⟨trivial, ?_⟩) fun _ _ hv => hv
    rw [hdir] at hmk
    exact h.mkdirp haside hnamed hgen hname hmk
  refine Act.Triple.bind (Q := fun _ => Sound P cwd dataRoot base) ?_ fun _ => ?_
  · refine Trail.writeSent (fun _ t t' _ h hw => ⟨trivial, ?_⟩) fun _ _ hv => hv
    rw [hfile _ (Normal.isName_of_length (by decide) (by decide))] at hw
    exact h.writeFile haside (.inl hgen) hscratch hname hw
  refine Act.Triple.bind (Q := fun _ => Sound P cwd dataRoot base) ?_ fun _ => ?_
  · refine Trail.writeSent (fun _ t t' _ h hw => ⟨trivial, ?_⟩) fun _ _ hv => hv
    rw [hfile _ (Normal.isName_of_length (by decide) (by decide))] at hw
    exact h.writeFile haside (.inl hgen) hscratch hname hw
  -- the metadata of the new generation
  refine Act.Triple.bind readNow_instant fun storedAt => ?_
  refine Act.Triple.bind (Q := fun _ => Trail (fun _ _ => True) base cwd fun t => StoreInv P cwd dataRoot t ∧
    (place = wildcardRoot cwd dataRoot → ∀ c, t.node (place ++ [tmp, js "meta.json"]) = some (.file c) → Described P c)) ?_ fun _ => ?_
  · refine Trail.writeFileSync (fun t t' h hw => ⟨trivial, ?_⟩) fun _ _ hv => hv.imp And.left
    rw [hfile _ (Normal.isName_of_length (by decide) (by decide))] at hw
    refine ⟨h.1.writeFile haside (.inl hgen) hscratch hname hw, fun hwild c hc => ?_⟩
    obtain ⟨k, hk⟩ := h.2
    rw [FileTree.node_writeFile hw, if_pos rfl] at hc
    cases hc
    exact ⟨certMeta, k, by rw [hk], hnames hwild⟩
  refine Act.Triple.bind (Q := fun _ => Sound P cwd dataRoot base) ?_ fun _ => ?_
  · refine Trail.renameSync (fun t t' h hr => ⟨trivial, ?_⟩) fun _ _ hv => hv.imp And.left
    rw [hdir, resolved_genDir hplace.symm] at hr
    refine h.1.rename haside (.inl hgen) (.inl (startsWith_genName n)) (isName_genName n) (fun hcurrent => ?_) h.2 hr
    exact absurd hcurrent.symm (current_ne_genName n)
  refine Act.Triple.bind (sound_writeCurrentGeneration n (hplace ▸ haside)) fun _ => ?_
  refine Act.Triple.bind (Act.Triple.forEach fun gen _ => ?_) fun _ => Act.Triple.pure fun _ hv => hv
  refine Trail.rmSync (fun t h => ⟨trivial, ?_⟩) fun _ _ hv => hv
  rw [resolved_genDir hplace.symm]
  exact h.remove haside (.inl (startsWith_genName gen))

/-- Calls that do no harm keep the store sound. -/
theorem sound_runCalls {calls : List StoreCall} (hcalls : ∀ c ∈ calls, Harmless cwd dataRoot c) :
    Act.Triple (Sound P cwd dataRoot base) (runCalls P dataRoot calls) (fun _ => Sound P cwd dataRoot base) fun _ _ => False := by
  refine Act.Triple.forEach fun c hc => ?_
  have hharmless := hcalls c hc
  refine Act.Triple.tryCatch (F := fun _ => Sound P cwd dataRoot base) ?_ fun _ => Act.Triple.pure fun _ hv => hv
  refine Act.Triple.bind ?_ fun _ => Act.Triple.pure fun _ hv => hv
  unfold storeCert
  split
  · rename_i name hname
    exact sound_storeNamed (hharmless.place name hname) (hharmless.names name hname) _ _
  · exact Act.Keeps.throw _

/-! ### Reading it back -/

variable (P) in
/-- What is read can be projected: the names can be read, and the date is an instant of the clock. -/
def Projectable (m : CertMeta) : Prop := Readable m.names ∧ ∃ k, m.storedAt = P.toISOString (P.clock k)

variable (P) in
/-- A value that is no metadata, or metadata that can be projected. -/
def Understood (v : Value) : Prop := ∀ m, certMetaOf v = some m → Projectable P m

theorem Described.understood {c : Content} (h : Described P c) : Understood P (c.parsed P) := by
  obtain ⟨certMeta, k, rfl, hreadable⟩ := h
  intro m hm
  have hstored : Certs.storedMeta certMeta (P.toISOString (P.clock k)) =
      Obj.setOwn (Obj.spread [] (Value.ownProps (some certMeta))) (js "storedAt") (.str (P.toISOString (P.clock k))) := by
    simp only [Certs.storedMeta, Obj.spread, List.foldl_append]
    rfl
  have hdate : Obj.get (Certs.storedMeta certMeta (P.toISOString (P.clock k))) (js "storedAt") =
      some (.str (P.toISOString (P.clock k))) := by rw [hstored, Obj.get_setOwn, if_pos rfl]
  have hnames : Obj.get (Certs.storedMeta certMeta (P.toISOString (P.clock k))) (js "names") = namesOf certMeta := by
    rw [hstored, Obj.get_setOwn, if_neg (by decide)]
    rfl
  simp only [Content.parsed, certMetaOf, hdate, hnames] at hm
  split at hm
  · cases hm
  · cases hm
    exact ⟨hreadable, k, rfl⟩

variable (cwd) in
/-- Nothing is changed. -/
abbrev Fixed (base t : Certs.Tree) (p : Prop) : Certs.Volume → Prop := Trail (fun _ _ => True) base cwd fun u => u = t ∧ p

section Reading

variable {E : JsError → Certs.Volume → Prop} {p : Prop}

theorem fixed_listGenerations (hname : Normal.IsName name) (hdir : t.node (certsRoot cwd dataRoot ++ [name]) = some .dir) :
    Act.Triple (Fixed cwd base t p) (listGenerations P (certsDir dataRoot) name) (fun _ => Fixed cwd base t p) E := by
  have hplace : resolved cwd (nameDir (certsDir dataRoot) name) = certsRoot cwd dataRoot ++ [name] :=
    resolved_joinPath cwd _ hname
  refine Act.Triple.bind Trail.existsSync fun found => ?_
  cases found with
  | false => exact Act.Triple.pure fun v hv => hv.imp And.left
  | true =>
    rw [if_pos rfl]
    refine Act.Triple.bind (Trail.inspect_ok fun u hu => ⟨(hu.2.1 rfl).1, ?_⟩) fun _ => Act.Triple.pure fun v hv =>
      hv.imp fun h => h.1.1
    rw [hplace, hu.1.1, FileTree.readdir, if_pos (FileTree.isDir_iff.mpr hdir)]
    exact ⟨_, rfl⟩

/-- A file that is looked for and read, unless there is a directory. -/
theorem fixed_readFileSync {path : JsString} (hnode : t.node (resolved cwd path) ≠ some .dir)
    (hfound : Plain (resolved cwd path) ∧ t.node (resolved cwd path) ≠ none) :
    Act.Triple (Fixed cwd base t p) (readFileSync path)
      (fun c => Fixed cwd base t (p ∧ t.node (resolved cwd path) = some (.file c))) E := by
  refine (Trail.inspect_ok fun u hu => ⟨hfound.1, ?_⟩).conseq (fun _ hv => hv) (fun c v hv => hv.imp ?_) fun _ _ hv => hv
  · rw [hu.1]
    obtain ⟨x, hx⟩ := Option.ne_none_iff_exists'.mp hfound.2
    cases x with
    | dir => exact absurd hx hnode
    | file c => exact ⟨c, FileTree.readFile_iff.mpr hx⟩
  · rintro ⟨⟨rfl, hp⟩, hread⟩
    exact ⟨rfl, hp, FileTree.readFile_iff.mp hread⟩

theorem fixed_readCurrentGeneration (hname : Normal.IsName name)
    (hpointer : t.node (certsRoot cwd dataRoot ++ [name, js "current"]) ≠ some .dir) :
    Act.Triple (Fixed cwd base t p) (readCurrentGeneration P (certsDir dataRoot) name) (fun _ => Fixed cwd base t p) E := by
  have hplace : resolved cwd (currentPointerPath (certsDir dataRoot) name) = certsRoot cwd dataRoot ++ [name, js "current"] := by
    rw [resolved_current (resolved_joinPath cwd _ hname), List.append_assoc]
    rfl
  refine Act.Triple.bind Trail.existsSync fun found => ?_
  cases found with
  | false => exact Act.Triple.pure fun v hv => hv.imp And.left
  | true =>
    rw [if_pos rfl]
    refine Act.Triple.assume (p := Plain (resolved cwd (currentPointerPath (certsDir dataRoot) name)) ∧
      t.node (resolved cwd (currentPointerPath (certsDir dataRoot) name)) ≠ none) (fun v hv => ?_) fun hfound => ?_
    · obtain ⟨⟨heq, -⟩, hfound, -⟩ := hv.now
      rw [← heq]
      exact hfound rfl
    refine Act.Triple.bind ((fixed_readFileSync (by rwa [hplace]) hfound).conseq (fun v hv => hv.imp And.left)
      (fun _ _ hv => hv) fun _ _ hv => hv) fun c => Act.Triple.pure fun v hv => hv.imp fun h => ⟨h.1, h.2.1⟩

/-- The metadata of a generation: of the wildcard certificate they can be projected. -/
theorem fixed_readMeta (h : StoreInv P cwd dataRoot t) (hname : Normal.IsName name) (gen : ℤ) :
    Act.Triple (Fixed cwd base t p) (readMeta P (certsDir dataRoot) name gen)
      (fun m => Fixed cwd base t (p ∧ (name = wildcardCertName → Understood P m))) E := by
  have hplace : resolved cwd (joinPath (genDir (certsDir dataRoot) name gen) (js "meta.json")) =
      certsRoot cwd dataRoot ++ [name] ++ [genName gen, js "meta.json"] := by
    rw [resolved_joinPath cwd _ (Normal.isName_of_length (by decide) (by decide)),
      resolved_genDir (resolved_joinPath cwd _ hname), List.append_assoc]
    rfl
  have hnone : Understood P none := fun m hm => by cases hm
  refine Act.Triple.bind Trail.existsSync fun found => ?_
  cases found with
  | false => exact Act.Triple.pure fun v hv => hv.imp fun h => ⟨h.1.1, h.1.2, fun _ => hnone⟩
  | true =>
    rw [if_pos rfl]
    refine Act.Triple.tryCatch (F := fun _ => Fixed cwd base t p) ?_ fun _ =>
      Act.Triple.pure fun v hv => hv.imp fun h => ⟨h.1, h.2, fun _ => hnone⟩
    refine Act.Triple.bind (Trail.readFileSync fun _ v hv => hv.imp And.left) fun c => Act.Triple.pure fun v hv => hv.imp ?_
    rintro ⟨⟨⟨rfl, hp⟩, -⟩, hread⟩
    refine ⟨rfl, hp, ?_⟩
    rintro rfl
    rw [hplace] at hread
    exact (h.metas gen c hread).understood

theorem fixed_readRenewalState (name : JsString) :
    Act.Triple (Fixed cwd base t p) (readRenewalState (certsDir dataRoot) name) (fun _ => Fixed cwd base t p) E := by
  refine Act.Triple.bind Trail.existsSync fun found => ?_
  cases found with
  | false => exact Act.Triple.pure fun v hv => hv.imp And.left
  | true =>
    rw [if_pos rfl]
    refine Act.Triple.tryCatch (F := fun _ => Fixed cwd base t p) ?_ fun _ => Act.Triple.pure fun _ hv => hv
    refine Act.Triple.bind (Trail.readFileSync fun _ v hv => hv.imp And.left) fun c => ?_
    split
    · exact Act.Triple.pure fun v hv => hv.imp fun h => h.1.1
    · exact Act.Triple.pure fun v hv => hv.imp fun h => h.1.1

theorem fixed_certListEntry (h : StoreInv P cwd dataRoot t) (hdir : t.node (certsRoot cwd dataRoot ++ [name]) = some .dir) :
    Act.Triple (Fixed cwd base t p) (certListEntry P (certsDir dataRoot) name)
      (fun entry => Fixed cwd base t (p ∧ entry.name = name ∧ (name = wildcardCertName → Understood P entry.certMeta))) E := by
  have hname : Normal.IsName name := h.entries name (by rw [hdir]; simp)
  refine Act.Triple.bind (fixed_listGenerations hname hdir) fun gens => ?_
  refine Act.Triple.bind (fixed_readCurrentGeneration hname (h.pointer name)) fun current => ?_
  refine Act.Triple.bind (fixed_readMeta h hname _) fun certMeta => ?_
  refine Act.Triple.bind (fixed_readRenewalState name) fun renewal => ?_
  exact Act.Triple.pure fun v hv => hv.imp fun h => ⟨h.1, h.2.1, rfl, h.2.2⟩

/-- **`listCerts` returns**, and what it has of the wildcard certificate can be projected. -/
theorem fixed_listCerts (h : StoreInv P cwd dataRoot t) (localeCompare : JsString → JsString → ℤ) :
    Act.Triple (Fixed cwd base t p) (listCerts P (certsDir dataRoot) localeCompare)
      (fun entries => Fixed cwd base t (p ∧ ∀ e ∈ entries, e.name = wildcardCertName → Understood P e.certMeta)) E := by
  refine Act.Triple.bind Trail.existsSync fun found => ?_
  cases found with
  | false => exact Act.Triple.pure fun v hv => hv.imp fun h => ⟨h.1.1, h.1.2, by simp⟩
  | true =>
    rw [if_pos rfl]
    refine Act.Triple.bind (Trail.inspect_ok fun u hu => ⟨(hu.2.1 rfl).1, ?_⟩) fun names => ?_
    · have hdir : u.isDir (resolved cwd (certsDir dataRoot)) = true := by
        rw [FileTree.isDir_iff, hu.1.1]
        exact h.root
      rw [FileTree.readdir, if_pos hdir]
      exact ⟨_, rfl⟩
    refine Act.Triple.assume (p := ∀ x ∈ names, t.node (certsRoot cwd dataRoot ++ [x]) = some .dir) (fun v hv => ?_) fun hnames => ?_
    · obtain ⟨⟨⟨heq, -⟩, -⟩, hread⟩ := hv.now
      rw [heq] at hread
      obtain ⟨all, -, rfl⟩ := Option.map_eq_some_iff.mp hread
      intro x hx
      exact FileTree.isDir_iff.mp (List.mem_filter.mp hx).2
    refine Act.Triple.bind (Q := fun entries v => (∀ e ∈ entries, e.name = wildcardCertName → Understood P e.certMeta) ∧
      Fixed cwd base t p v) ?_ fun entries => ?_
    · refine (Act.Triple.collectAll (I := Fixed cwd base t p) fun x hx => ?_).conseq (fun v hv => hv.imp fun h => h.1.1)
        (fun _ _ hv => hv) fun _ _ hv => hv
      refine Act.Triple.bind (fixed_certListEntry h (hnames x hx)) fun entry => Act.Triple.pure fun v hv => ⟨?_, hv.imp fun h => ⟨h.1, h.2.1⟩⟩
      obtain ⟨-, -, hentry, hunderstood⟩ := hv.now
      intro e he hwild
      rw [List.mem_singleton.mp he] at hwild ⊢
      exact hunderstood (hentry.symm.trans hwild)
    · refine Act.Triple.pure fun v hv => hv.2.imp fun hp => ⟨hp.1, hp.2, fun e he => hv.1 e ?_⟩
      exact (sortBy_perm _ _).mem_iff.mp he

/-- **`readCertMeta` returns**, and what it returns can be projected. -/
theorem fixed_readCertMeta (h : StoreInv P cwd dataRoot t) (localeCompare : JsString → JsString → ℤ) :
    Act.Triple (Fixed cwd base t p) (readCertMeta P dataRoot localeCompare wildcardCertName)
      (fun m => Fixed cwd base t (p ∧ ∀ x, m = some x → Projectable P x)) E := by
  refine Act.Triple.bind (fixed_listCerts h localeCompare) fun entries => Act.Triple.pure fun v hv => hv.imp ?_
  rintro ⟨heq, hp, hentries⟩
  refine ⟨heq, hp, fun x hx => ?_⟩
  obtain ⟨entry, hentry, hmeta⟩ := Option.bind_eq_some_iff.mp hx
  exact hentries entry (List.mem_of_find?_eq_some hentry) (by simpa using List.find?_some hentry) x hmeta

end Reading

/-! ### The renewal state -/

/-- Making the directory of the wildcard certificate. -/
theorem StoreInv.mkdirWildcard (h : StoreInv P cwd dataRoot t) : ∃ t', t.mkdirp (wildcardRoot cwd dataRoot) = some t' ∧
    StoreInv P cwd dataRoot t' ∧ t'.node (wildcardRoot cwd dataRoot) = some .dir := by
  obtain ⟨t', hmk⟩ := FileTree.exists_mkdirp (t := t) (p := wildcardRoot cwd dataRoot) fun q hq c hc => by
    rcases List.prefix_concat_iff.mp hq with rfl | ⟨rest, hrest⟩
    · exact h.wildcard c hc
    · cases rest with
      | nil =>
        rw [List.append_nil] at hrest
        rw [hrest, h.root] at hc
        cases hc
      | cons x rest =>
        have hdir := FileTree.dir_of_append (t := t) (p := q) (List.cons_ne_nil x rest) (by rw [hrest, h.root]; simp)
        rw [hdir] at hc
        cases hc
  have hnode := FileTree.node_mkdirp hmk
  have hlong : ∀ {x y : JsString}, ¬ certsRoot cwd dataRoot ++ [x, y] <+: wildcardRoot cwd dataRoot :=
    fun hpre => absurd hpre.length_le (by simp [wildcardRoot])
  have hlonger : ∀ {x : JsString} {rest : List JsString}, ¬ wildcardRoot cwd dataRoot ++ x :: rest <+: wildcardRoot cwd dataRoot :=
    fun hpre => absurd hpre.length_le (by simp)
  refine ⟨t', hmk, ⟨?_, fun x hx => ?_, fun x => ?_, fun x hx => ?_, fun c => ?_, fun n c hc => ?_⟩, ?_⟩
  · have hup : certsRoot cwd dataRoot <+: wildcardRoot cwd dataRoot := List.prefix_append _ _
    rw [hnode, if_pos hup]
  · rw [hnode] at hx
    split at hx
    · rename_i hpre
      rw [wildcardRoot, List.prefix_append_right_inj] at hpre
      rw [(List.cons_prefix_cons.mp hpre).1]
      exact Normal.isName_of_length (by decide) (by decide)
    · exact h.entries x hx
  · rw [hnode, if_neg hlong]
    exact h.pointer x
  · rw [hnode, if_neg hlonger]
    exact h.state x hx
  · rw [hnode, if_pos List.prefix_rfl]
    simp
  · rw [hnode, if_neg hlonger] at hc
    exact h.metas n c hc
  · rw [hnode, if_pos List.prefix_rfl]

/-- Writing the renewal state under a temporary name. -/
theorem StoreInv.writeState (h : StoreInv P cwd dataRoot t) {c : Content}
    (hw : t.writeFile (wildcardRoot cwd dataRoot ++ [e]) c = some t') : StoreInv P cwd dataRoot t' := by
  have hnode := FileTree.node_writeFile hw
  have hshort : ∀ {p : List JsString}, p.length ≠ (certsRoot cwd dataRoot).length + 2 → t'.node p = t.node p := by
    intro p hp
    rw [hnode, if_neg]
    rintro rfl
    exact hp (by simp [wildcardRoot])
  refine ⟨?_, fun x hx => ?_, fun x => ?_, fun x hx => ?_, fun c => ?_, fun n c hc => ?_⟩
  · rw [hshort (by simp), h.root]
  · rw [hshort (by simp)] at hx
    exact h.entries x hx
  · rw [hnode]
    split
    · simp
    · exact h.pointer x
  · rw [hnode]
    split
    · simp
    · exact h.state x hx
  · rw [hshort (by simp [wildcardRoot])]
    exact h.wildcard c
  · rw [hshort (by simp [wildcardRoot])] at hc
    exact h.metas n c hc

/-- Putting the renewal state in its place. -/
theorem StoreInv.renameState (h : StoreInv P cwd dataRoot t) (hfile : t.node (wildcardRoot cwd dataRoot ++ [e]) ≠ some .dir)
    (hr : t.rename (wildcardRoot cwd dataRoot ++ [e]) (wildcardRoot cwd dataRoot ++ [js "renewal-state.json"]) = some t') :
    StoreInv P cwd dataRoot t' := by
  have hnode := FileTree.node_rename hr
  have hshort : ∀ {p : List JsString}, p.length < (certsRoot cwd dataRoot).length + 2 → t'.node p = t.node p := by
    intro p hp
    have hno : ∀ x, ¬ wildcardRoot cwd dataRoot ++ [x] <+: p := by
      intro x hpre
      have hlength := hpre.length_le
      simp only [wildcardRoot, List.length_append, List.length_cons, List.length_nil] at hlength
      omega
    rw [hnode, if_neg (hno _), if_neg (hno _)]
  refine ⟨?_, fun x hx => ?_, fun x => ?_, fun x hx => ?_, fun c => ?_, fun n c hc => ?_⟩
  · rw [hshort (by simp), h.root]
  · rw [hshort (by simp)] at hx
    exact h.entries x hx
  · rw [hnode, if_neg]
    · split
      · simp
      · exact h.pointer x
    · intro hpre
      rw [wildcardRoot, List.append_assoc, List.prefix_append_right_inj] at hpre
      have hname := (List.cons_prefix_cons.mp (List.cons_prefix_cons.mp hpre).2).1
      revert hname
      decide
  · rw [hnode]
    split
    · rename_i hpre
      rw [List.prefix_append_right_inj] at hpre
      obtain ⟨rfl, -⟩ := List.cons_prefix_cons.mp hpre
      rw [List.drop_length, List.append_nil]
      exact hfile
    · split
      · simp
      · exact h.state x hx
  · rw [hshort (by simp [wildcardRoot])]
    exact h.wildcard c
  · rw [hnode, if_neg] at hc
    · split at hc
      · cases hc
      · exact h.metas n c hc
    · intro hpre
      rw [List.prefix_append_right_inj] at hpre
      have hname := (List.cons_prefix_cons.mp hpre).1
      have hstart := startsWith_genName n
      rw [← hname] at hstart
      revert hstart
      decide

theorem isName_state : Normal.IsName (js "renewal-state.json") := Normal.isName_of_length (by decide) (by decide)

/-- **The renewal state can be written.** -/
theorem sound_writeRenewalState (hplain : Plain (certsRoot cwd dataRoot)) (state : RenewalState)
    {E : JsError → Certs.Volume → Prop} :
    Act.Triple (Sound P cwd dataRoot base) (writeRenewalState P (certsDir dataRoot) wildcardCertName state)
      (fun _ => Sound P cwd dataRoot base) E := by
  have hdir : resolved cwd (nameDir (certsDir dataRoot) wildcardCertName) = wildcardRoot cwd dataRoot :=
    resolved_joinPath cwd _ (Normal.isName_of_length (by decide) (by decide))
  have hplainDir : Plain (wildcardRoot cwd dataRoot) := hplain.concat (by decide)
  have hpath : resolved cwd (renewalStatePath (certsDir dataRoot) wildcardCertName) =
      wildcardRoot cwd dataRoot ++ [js "renewal-state.json"] := by
    rw [renewalStatePath, resolved_joinPath cwd _ isName_state, hdir]
  refine Act.Triple.bind (Q := fun _ => Trail (fun _ _ => True) base cwd fun t => StoreInv P cwd dataRoot t ∧
    t.node (wildcardRoot cwd dataRoot) = some .dir) ?_ fun _ => ?_
  · refine Trail.mkdirSync_ok (by rwa [hdir]) fun t h => ?_
    obtain ⟨t', hmk, hinv, hthere⟩ := h.mkdirWildcard
    exact ⟨t', by rwa [hdir], trivial, hinv, hthere⟩
  refine Act.Triple.bind Trail.readNow fun now => ?_
  obtain ⟨tmp, htmp⟩ : ∃ tmp, tmp = js "renewal-state.json" ++ tmpSuffix P.pid now := ⟨_, rfl⟩
  have hstart : startsWith tmp (js "renewal-state.json") = true := by
    rw [htmp]
    exact startsWith_append _ (by decide)
  have htmpPath : resolved cwd (renewalStatePath (certsDir dataRoot) wildcardCertName ++ tmpSuffix P.pid now) =
      wildcardRoot cwd dataRoot ++ [tmp] := by
    rw [renewalStatePath, resolved_joinPath_append cwd _ isName_state (slash_not_mem_tmpSuffix _ _) (length_tmpSuffix _ _), hdir, htmp]
  have hplainTmp : Plain (wildcardRoot cwd dataRoot ++ [tmp]) := by
    refine hplainDir.concat ?_
    rw [htmp, List.mem_append, not_or]
    exact ⟨by decide, nul_not_mem_tmpSuffix _ _⟩
  refine Act.Triple.bind (Q := fun _ => Trail (fun _ _ => True) base cwd fun t => (StoreInv P cwd dataRoot t ∧
    t.node (wildcardRoot cwd dataRoot) = some .dir) ∧
    ∃ c, t.node (wildcardRoot cwd dataRoot ++ [tmp]) = some (.file c)) ?_ fun _ => ?_
  · refine Trail.writeFileSync_ok (by rwa [htmpPath]) fun t h => ?_
    obtain ⟨t', hw⟩ := FileTree.exists_writeFile (t := t) (p := wildcardRoot cwd dataRoot ++ [tmp]) (by simp)
      (by rw [List.dropLast_concat]; exact h.2) (h.1.state tmp hstart) (.renewalState state)
    have hnode := FileTree.node_writeFile hw
    refine ⟨t', by rwa [htmpPath], trivial, ⟨h.1.writeState hw, ?_⟩, _, by rw [hnode, if_pos rfl]⟩
    rw [hnode, if_neg (by simp), h.2]
  · refine Trail.renameSync_ok (by rwa [htmpPath]) (by rw [hpath]; exact hplainDir.concat (by decide)) fun t h => ?_
    obtain ⟨⟨hinv, hthere⟩, c, hc⟩ := h
    have hbelow : ¬ wildcardRoot cwd dataRoot ++ [tmp] <+: wildcardRoot cwd dataRoot ++ [js "renewal-state.json"] := by
      intro hpre
      rw [List.prefix_append_right_inj] at hpre
      have hlength := congrArg List.length (List.cons_prefix_cons.mp hpre).1
      rw [htmp, List.length_append] at hlength
      have := length_tmpSuffix P.pid now
      omega
    obtain ⟨t', hr⟩ := FileTree.exists_rename_file hc hbelow (by simp) (by rw [List.dropLast_concat]; exact hthere)
      (hinv.state _ (by decide))
    exact ⟨t', by rwa [htmpPath, hpath], trivial, hinv.renameState (by rw [hc]; simp) hr⟩

/-! ### Reconciling -/

theorem itemsToText_ok {xs : List Json} (h : ∀ x ∈ xs, ∃ t, Value.jsonToText x = .ok t) : ∃ ts, Value.itemsToText xs = .ok ts := by
  induction xs with
  | nil => exact ⟨[], by rw [Value.itemsToText]⟩
  | cons x xs ih =>
    obtain ⟨ts, hts⟩ := ih fun y hy => h y (List.mem_cons_of_mem x hy)
    obtain ⟨t, ht⟩ := h x List.mem_cons_self
    cases x with
    | null => exact ⟨[] :: ts, by rw [Value.itemsToText, hts]; rfl⟩
    | _ => exact ⟨t :: ts, by rw [Value.itemsToText, ht, hts]; rfl; simp⟩

theorem mapM_jsonToText_ok {xs : List Json} (h : ∀ x ∈ xs, ∃ t, Value.jsonToText x = .ok t) :
    ∃ ts, xs.mapM Value.jsonToText = .ok ts := by
  induction xs with
  | nil => exact ⟨[], rfl⟩
  | cons x xs ih =>
    obtain ⟨ts, hts⟩ := ih fun y hy => h y (List.mem_cons_of_mem x hy)
    obtain ⟨t, ht⟩ := h x List.mem_cons_self
    exact ⟨t :: ts, by rw [List.mapM_cons, ht, hts]; rfl⟩

/-- Names that can be read have a text. -/
theorem Readable.namesText {names : Value} (h : Readable names) : ∃ text, namesText names = .ok text := by
  have hitems : ∃ items, spreadNames names = .ok items ∧ ∀ x ∈ items, ∃ t, Value.jsonToText x = .ok t := by
    rcases h with ⟨s, rfl⟩ | ⟨xs, rfl, hxs⟩
    · refine ⟨_, rfl, fun x hx => ?_⟩
      obtain ⟨c, -, rfl⟩ := List.mem_map.mp hx
      exact ⟨c, by rw [Value.jsonToText]⟩
    · exact ⟨xs, rfl, hxs⟩
  obtain ⟨items, hspread, htexts⟩ := hitems
  have hsorted : ∃ sorted, sortItems items = .ok sorted ∧ ∀ x ∈ sorted, x ∈ items := by
    unfold sortItems
    split
    · exact ⟨items, rfl, fun x hx => hx⟩
    · obtain ⟨texts, ht⟩ := mapM_jsonToText_ok htexts
      rw [ht]
      refine ⟨_, rfl, fun x hx => ?_⟩
      obtain ⟨p, hp, rfl⟩ := List.mem_map.mp hx
      exact (List.of_mem_zip ((sortBy_perm _ _).mem_iff.mp hp)).2
  obtain ⟨sorted, hsort, hmem⟩ := hsorted
  obtain ⟨ts, hts⟩ := itemsToText_ok fun x hx => htexts x (hmem x hx)
  refine ⟨join ts (js ","), ?_⟩
  simp only [Orchestrator.namesText, bind, Except.bind, hspread, hsort, hts]
  rfl

theorem Projectable.namesMatch {m : Option CertMeta} (h : ∀ x, m = some x → Projectable P x) (names : List JsString) :
    ∃ covered, namesMatch m names = .ok covered := by
  cases m with
  | none => exact ⟨false, rfl⟩
  | some x =>
    obtain ⟨text, htext⟩ := (h x rfl).1.namesText
    refine ⟨text == join (sortStrings names) (js ","), ?_⟩
    simp only [Orchestrator.namesMatch, bind, Except.bind, htext]
    rfl

theorem includesName_ok {names : Value} (h : Readable names) (hostname : JsString) : ∃ b, includesName names hostname = .ok b := by
  rcases h with ⟨s, rfl⟩ | ⟨xs, rfl, -⟩
  · exact ⟨_, rfl⟩
  · exact ⟨_, rfl⟩

section Reconcile

variable {E : JsError → Certs.Volume → Prop} {env : Env} {r : Issuing} {names : List JsString} {zone : Option JsString}

/-- The metadata of the current certificate, over a sound store. -/
theorem sound_readCertMeta (localeCompare : JsString → JsString → ℤ) :
    Act.Triple (Sound P cwd dataRoot base) (readCertMeta P dataRoot localeCompare wildcardCertName)
      (fun m v => (∀ x, m = some x → Projectable P x) ∧ Sound P cwd dataRoot base v) E := by
  refine Act.Triple.ofEach fun v hv => ?_
  refine Act.Triple.conseq (P := Fixed cwd base v.tree True) (fixed_readCertMeta hv.now localeCompare) (fun v' heq => ?_)
    (fun m v' h => ⟨h.now.2.2, h.imp ?_⟩) fun _ _ h => h
  · rw [heq]
    exact ⟨hv.chain, hv.last, hv.cwd, rfl, trivial⟩
  · rintro ⟨heq, -⟩
    rw [heq]
    exact hv.now

theorem sound_readRenewalState (name : JsString) :
    Act.Triple (Sound P cwd dataRoot base) (readRenewalState (certsDir dataRoot) name) (fun _ => Sound P cwd dataRoot base) E := by
  refine Act.Triple.ofEach fun v hv => ?_
  refine Act.Triple.conseq (P := Fixed cwd base v.tree True) (fixed_readRenewalState name) (fun v' heq => ?_)
    (fun m v' h => h.imp ?_) fun _ _ h => h
  · rw [heq]
    exact ⟨hv.chain, hv.last, hv.cwd, rfl, trivial⟩
  · rintro ⟨heq, -⟩
    rw [heq]
    exact hv.now

/-- An attempt returns, whatever the issuer answers and stores. -/
theorem attemptRenewal_returns (hplain : Plain (certsRoot cwd dataRoot)) (hcalls : ∀ c ∈ r.calls, Harmless cwd dataRoot c)
    (state : RenewalState) (certIssuerId : JsString) :
    Act.Triple (Sound P cwd dataRoot base) (attemptRenewal env (renewalDeps P dataRoot env r) names zone state certIssuerId)
      (fun result v => result = none ∧ Sound P cwd dataRoot base v) fun _ _ => False := by
  refine Act.Triple.bind (Q := fun _ => Sound P cwd dataRoot base) ?_ fun answer => ?_
  · exact Act.Triple.bind (sound_runCalls hcalls) fun _ => Act.Triple.pure fun _ hv => hv
  refine Act.Triple.bind (Q := fun _ => Sound P cwd dataRoot base) Trail.readNow fun attemptedAt => ?_
  refine Act.Triple.bind (sound_writeRenewalState hplain _) fun _ => ?_
  cases answer with
  | ok u => exact Act.Triple.bind (Act.Triple.pure fun _ hv => hv) fun _ => Act.Triple.pure fun _ hv => ⟨rfl, hv⟩
  | error message => exact Act.Triple.pure fun _ hv => ⟨rfl, hv⟩

/-- **RENEWAL returns** over a sound store, and leaves it sound. -/
theorem renewalRun_returns (hplain : Plain (certsRoot cwd dataRoot)) (hcalls : ∀ c ∈ r.calls, Harmless cwd dataRoot c) :
    Act.Triple (Sound P cwd dataRoot base) (renewalRun env (renewalDeps P dataRoot env r) names zone)
      (fun result v => result = none ∧ Sound P cwd dataRoot base v) fun _ _ => False := by
  unfold renewalRun
  split
  · exact Act.Triple.pure fun _ hv => ⟨rfl, hv⟩
  refine Act.Triple.bind (Q := fun _ => Sound P cwd dataRoot base) (Act.Triple.pure fun _ hv => hv) fun certIssuer => ?_
  refine Act.Triple.bind (sound_readCertMeta _) fun certMeta => ?_
  refine Act.Triple.assume (p := ∀ x, certMeta = some x → Projectable P x) (fun v hv => hv.1) fun hmeta => ?_
  refine Act.Triple.bind (Q := fun _ => Sound P cwd dataRoot base) (Act.Triple.ofExcept (fun _ _ _ hv => hv.2) fun e he => ?_)
    fun covered => ?_
  · obtain ⟨covered, hcovered⟩ := Projectable.namesMatch hmeta names
    rw [hcovered] at he
    cases he
  refine Act.Triple.bind (sound_readRenewalState _) fun state => ?_
  refine Act.Triple.bind (Q := fun _ => Sound P cwd dataRoot base) Trail.readNow fun t => ?_
  have hdecide : ∀ certIssuerId, Act.Triple (Sound P cwd dataRoot base)
      (decideRenewal env (renewalDeps P dataRoot env r) names zone certMeta covered state certIssuerId)
      (fun result v => result = none ∧ Sound P cwd dataRoot base v) fun _ _ => False := by
    intro certIssuerId
    refine Act.Triple.bind (Q := fun _ => Sound P cwd dataRoot base) Trail.readNow fun t => ?_
    split
    · exact attemptRenewal_returns hplain hcalls _ _
    · exact Act.Triple.pure fun _ hv => ⟨rfl, hv⟩
  -- the flag of the run does not matter
  have hflag : ∀ {p : Prop} [Decidable p] {reason : StageError} {rest : Act Certs.Volume StageResult},
      Act.Triple (Sound P cwd dataRoot base) rest (fun result v => result = none ∧ Sound P cwd dataRoot base v) (fun _ _ => False) →
      Act.Triple (Sound P cwd dataRoot base)
        (if p then (renewalDeps P dataRoot env r).degrade reason >>= fun _ => rest else rest)
        (fun result v => result = none ∧ Sound P cwd dataRoot base v) fun _ _ => False := by
    intro p _ reason rest hrest
    split
    · exact Act.Triple.bind (Q := fun _ => Sound P cwd dataRoot base) (Act.Triple.pure fun _ hv => hv) fun _ => hrest
    · exact hrest
  cases truthy certIssuer with
  | none => exact hflag (Act.Triple.pure fun _ hv => ⟨rfl, hv⟩)
  | some certIssuerId => exact hflag (hdecide certIssuerId)

/-- **OBSERVE's projection returns** over a sound store. -/
theorem observeCert_returns (hdates : ∀ k, env.parseDate (P.toISOString (P.clock k)) = some (P.clock k)) (hostname : Option JsString) :
    Act.Triple (Sound P cwd dataRoot base) (observeCert P dataRoot env hostname) (fun _ => Sound P cwd dataRoot base)
      fun _ _ => False := by
  refine Act.Triple.bind (sound_readCertMeta _) fun certMeta => ?_
  refine Act.Triple.assume (p := ∀ x, certMeta = some x → Projectable P x) (fun v hv => hv.1) fun hmeta => ?_
  have hproject : ∃ doc, projectStored env hostname certMeta = .ok doc := by
    unfold projectStored
    split
    · rename_i host m _
      obtain ⟨hreadable, k, hk⟩ := hmeta m rfl
      obtain ⟨b, hb⟩ := includesName_ok hreadable host
      simp only [hb, bind, Except.bind, hk, hdates]
      cases b with
      | true => exact ⟨_, rfl⟩
      | false => exact ⟨_, rfl⟩
    · exact ⟨_, rfl⟩
  obtain ⟨doc, hdoc⟩ := hproject
  refine Act.Triple.ofExcept (fun _ _ _ hv => hv.2) fun e he => ?_
  rw [hdoc] at he
  cases he

theorem StoreInv.start {t₀ : Certs.Tree} (hroot : t₀.node (certsRoot cwd dataRoot) = some .dir)
    (hempty : Empty cwd (certsDir dataRoot) t₀) : StoreInv P cwd dataRoot t₀ := by
  have hnone : ∀ x rest, t₀.node (certsRoot cwd dataRoot ++ x :: rest) = none := hempty
  refine ⟨hroot, fun x hx => absurd (hnone x []) hx, fun x => ?_, fun x _ => ?_, fun c => ?_, fun n c hc => ?_⟩
  · rw [hnone]
    simp
  · rw [wildcardRoot, List.append_assoc, List.singleton_append, hnone]
    simp
  · rw [wildcardRoot, hnone]
    simp
  · rw [wildcardRoot, List.append_assoc, List.singleton_append, hnone] at hc
    cases hc

/-- **Renewal problems do not stop the pipeline**, where plugins do no harm: from an empty directory of certificates, after
any calls of `certs.store` that store aside and give the wildcard certificate names that can be read, RENEWAL returns,
whatever names are required and whatever the issuer answers and stores meanwhile, and OBSERVE projects the expiry of the
certificate for every host name. -/
theorem renewal_returns (P : Process) (env : Env) {cwd : List JsString} {dataRoot : JsString} {t₀ : Certs.Tree}
    (hdates : ∀ k, env.parseDate (P.toISOString (P.clock k)) = some (P.clock k)) (hplain : Plain (certsRoot cwd dataRoot))
    (hroot : t₀.node (certsRoot cwd dataRoot) = some .dir) (hempty : Empty cwd (certsDir dataRoot) t₀) {calls : List StoreCall}
    (hcalls : ∀ c ∈ calls, Harmless cwd dataRoot c) {r : Issuing} (hissued : ∀ c ∈ r.calls, Harmless cwd dataRoot c)
    (names : List JsString) (zone : Option JsString) :
    GoesOn P dataRoot env r names zone (runCalls P dataRoot calls { cwd, tree := t₀ }).2 := by
  obtain ⟨stored, hstoredEq⟩ : ∃ stored, stored = (runCalls P dataRoot calls { cwd, tree := t₀ }).2 := ⟨_, rfl⟩
  rw [← hstoredEq]
  have hstart : Sound P cwd dataRoot t₀ { cwd, tree := t₀ } :=
    Trail.start (v := { cwd, tree := t₀ }) (StoreInv.start hroot hempty) rfl
  have hstored : Sound P cwd dataRoot t₀ stored := by
    rw [hstoredEq]
    exact (sound_runCalls hcalls).final hstart (fun _ _ hv => hv) fun _ _ h => h.elim
  have hruns : Act.Triple (Sound P cwd dataRoot t₀) (renewalRun env (renewalDeps P dataRoot env r) names zone)
      (fun result v => result = none ∧ Sound P cwd dataRoot t₀ v) fun _ _ => False := renewalRun_returns hplain hissued
  have hrun := hruns stored hstored
  rcases hresult : renewalRun env (renewalDeps P dataRoot env r) names zone stored with ⟨result, v⟩
  rw [hresult] at hrun
  cases result with
  | error e => exact hrun.elim
  | ok result =>
    obtain ⟨rfl, hv⟩ := hrun
    refine ⟨by rw [hresult], fun hostname => ?_⟩
    rw [hresult]
    have hobserve := observeCert_returns hdates hostname v hv
    revert hobserve
    rcases observeCert P dataRoot env hostname v with ⟨answer, w⟩
    cases answer with
    | error e => exact fun h => h.elim
    | ok doc => exact fun _ => ⟨doc, rfl⟩

end Reconcile

end Invariant

/-- The directory of the certificates, with nothing in it. -/
def emptyCerts : Certs.Tree := (FileTree.empty.mkdirp [js "data", js "certs"]).getD .empty

/-- The wildcard certificate, with these metadata. -/
def wildcardCall (certMeta : Value) : StoreCall :=
  ⟨some (.str (js "wildcard")), some (.str (js "cert")), some (.str (js "key")), certMeta⟩

/-- An issuer that answers with an error. -/
def failingIssuing : Issuing := ⟨some (js "acme"), [], .error none⟩

theorem harmless_wildcardCall {certMeta : Value} (h : Readable (namesOf (certMeta.coalesce (.obj [])))) :
    Harmless [] (js "/data") (wildcardCall certMeta) := by
  have hroot : certsRoot [] (js "/data") = [js "data", js "certs"] := by decide
  have hplace : resolved [] (nameDir (certsDir (js "/data")) (js "wildcard")) = [js "data", js "certs", js "wildcard"] := by decide
  refine ⟨fun name hname => ?_, fun _ _ _ => h⟩
  cases hname
  rw [hplace]
  refine ⟨fun x hpre => ?_, fun e _ hpre => ?_, fun e rest heq => ?_⟩
  · exact absurd hpre.length_le (by simp [hroot])
  · exact absurd hpre.length_le (by simp [wildcardRoot, hroot])
  · rw [hroot] at heq
    exact absurd (congrArg List.length heq) (by simp)

theorem renewal_returns_wildcard :
    GoesOn firstProcess (js "/data") firstHour failingIssuing [js "a.example.org"] (some (js "example.org"))
      (runCalls firstProcess (js "/data") [wildcardCall (some (.obj [(js "names", .arr [.str (js "b.example.org")])]))]
        { cwd := [], tree := emptyCerts }).2 := by
  have hroot : certsRoot [] (js "/data") = [js "data", js "certs"] := by decide
  have hcall : Harmless [] (js "/data") (wildcardCall (some (.obj [(js "names", .arr [.str (js "b.example.org")])]))) := by
    refine harmless_wildcardCall (.inr ⟨[.str (js "b.example.org")], rfl, fun x hx => ⟨js "b.example.org", ?_⟩⟩)
    rw [List.mem_singleton.mp hx, Value.jsonToText]
  have hdate : firstHour.parseDate (js "1970-01-01T00:00:00.000Z") = some 0 := by decide
  refine renewal_returns firstProcess firstHour (fun _ => hdate) ?_ ?_ ?_ (fun c hc => ?_) (fun c hc => ?_) _ _
  · rw [hroot]
    unfold Plain
    decide
  · rw [hroot]
    rfl
  · intro e rest
    have hcerts : resolved [] (certsDir (js "/data")) = [js "data", js "certs"] := hroot
    rw [hcerts]
    rfl
  · rw [List.mem_singleton.mp hc]
    exact hcall
  · cases hc

/-- Without metadata RENEWAL throws, in this reconcile and in every later one. -/
theorem bare_certificate_stops_renewal :
    ¬ GoesOn firstProcess (js "/data") firstHour failingIssuing [js "a.example.org"] (some (js "example.org"))
      (runCalls firstProcess (js "/data") [wildcardCall none] { cwd := [], tree := emptyCerts }).2 := by
  have hthrows : (renewalRun firstHour (renewalDeps firstProcess (js "/data") firstHour failingIssuing) [js "a.example.org"]
      (some (js "example.org")) (runCalls firstProcess (js "/data") [wildcardCall none] { cwd := [], tree := emptyCerts }).2).1 =
        .error (.typeError (js "meta.names is not iterable")) := by decide +kernel
  intro h
  have hreturns := h.1
  rw [hthrows] at hreturns
  cases hreturns

end Wanfw.Orchestrator.CertRenewal
