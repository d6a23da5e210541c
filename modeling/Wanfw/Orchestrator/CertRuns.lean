import Wanfw.Orchestrator.CertGenerations

/-!
# Runs of the certificate store

Calls of `storeCert` and `rollbackCert` one after the other, each by a process of its own that may stop after
any number of changes; the next one goes on with the tree that is left. `history` has every tree that was there
at some time.

`generations_kept`: throughout a run the generations of a name are never torn, and each call that comes to its end
does what it is for.
-/

namespace Wanfw.Orchestrator.Certs

open Wanfw.Js Wanfw.Store

/-- A call of the store. -/
inductive CertCall where
  | store (name : JsString) (certPem keyPem : Value) (certMeta : Json)
  | rollback (name : JsString)

/-- The name that a call is for. -/
def CertCall.name : CertCall → JsString
  | .store name _ _ _ => name
  | .rollback name => name

/-- What a call does. -/
def CertCall.run (P : Process) (certsDir : JsString) : CertCall → Act Volume ℤ
  | .store name certPem keyPem certMeta => storeNamed P certsDir name certPem keyPem certMeta
  | .rollback name => rollbackCert P certsDir name

/-- A call by a process, which may stop after so many changes. -/
structure CertStep where
  call : CertCall
  pid : ℕ
  clock : ℕ → ℤ
  stop : Option ℕ := none

section Run

variable (P : Process) (cwd : List JsString) (certsDir : JsString)

/-- How the call ends, if the process does not stop. -/
def CertStep.outcome (s : CertStep) (t : Tree) : Except JsError ℤ × Volume :=
  s.call.run { P with pid := s.pid, clock := s.clock } certsDir { cwd, tree := t }

/-- The trees from the call on, up to its end or to where the process stops. -/
def CertStep.trees (s : CertStep) (t : Tree) : List Tree :=
  match s.stop with
  | none => t :: (s.outcome P cwd certsDir t).2.log
  | some k => t :: (s.outcome P cwd certsDir t).2.log.take k

/-- The tree that is left. -/
def CertStep.after (s : CertStep) (t : Tree) : Tree := (s.trees P cwd certsDir t).getLastD t

/-- The tree after these calls. -/
def runSteps (t : Tree) (steps : List CertStep) : Tree := steps.foldl (fun t s => s.after P cwd certsDir t) t

/-- Every tree that was there, in the order of time; that between two calls stands there twice. -/
def history : Tree → List CertStep → List Tree
  | t, [] => [t]
  | t, s :: steps => s.trees P cwd certsDir t ++ history (s.after P cwd certsDir t) steps

end Run

variable {P : Process} {B : Bundle → Prop} {dir : List JsString} {t t' t₀ base : Tree} {cwd : List JsString}
  {certsDir name : JsString} {n : ℤ}

/-! ### Rolling back -/

variable (P) in
/-- The pointer has been moved from a generation to the greatest one below it. -/
def RolledBack (dir : List JsString) (t₀ : Tree) (n : ℤ) (t : Tree) : Prop :=
  ∃ current, (archive P dir t₀).current = some current ∧ (archive P dir t₀).Has n ∧ n < current ∧
    (∀ m, (archive P dir t₀).Has m → m < current → m ≤ n) ∧ archive P dir t = { archive P dir t₀ with current := some n }

theorem readCurrentGeneration_spec {R : Tree → Tree → Prop} {E : JsError → Volume → Prop}
    (hdir : resolved cwd (nameDir certsDir name) = dir) (hE : ∀ e v, Trail R base cwd (· = t₀) v → E e v) :
    Act.Triple (Trail R base cwd (· = t₀)) (readCurrentGeneration P certsDir name)
      (fun r => Trail R base cwd fun t => t = t₀ ∧ ∀ c, r = some c → (archive P dir t₀).current = some c ∧ Plain dir) E := by
  refine Act.Triple.bind Trail.existsSync fun found => ?_
  rw [resolved_current hdir]
  cases found with
  | false => exact Act.Triple.pure fun v hv => hv.imp fun h => ⟨h.1, fun c hc => by cases hc⟩
  | true =>
    rw [if_pos rfl]
    refine Act.Triple.bind (Trail.readFileSync fun e v hv => hE e v (hv.imp fun h => h.1)) fun raw => ?_
    rw [resolved_current hdir]
    refine Act.Triple.pure fun v hv => hv.imp ?_
    rintro ⟨⟨rfl, hfound, -⟩, hnode⟩
    refine ⟨rfl, fun c hc => ⟨?_, fun s hs => (hfound rfl).1 s (List.mem_append_left _ hs)⟩⟩
    simp only [archive, currentAt, hnode, hc]

/-- The last of the smaller numbers is the greatest of them. -/
theorem le_getLast_filter {gens : List ℤ} (hsorted : gens.Pairwise (· < ·)) {c p m : ℤ}
    (hp : (gens.filter fun g => g < c).getLast? = some p) (hm : m ∈ gens) (hc : m < c) : m ≤ p := by
  have hmem : m ∈ gens.filter fun g => g < c := List.mem_filter.mpr ⟨hm, by simpa using hc⟩
  obtain ⟨init, hinit⟩ := List.getLast?_eq_some_iff.mp hp
  have hpairs := hsorted.filter fun g => g < c
  rw [hinit] at hmem hpairs
  rcases List.mem_append.mp hmem with hmem | hmem
  · exact ((List.pairwise_append.mp hpairs).2.2 m hmem p (List.mem_singleton_self p)).le
  · exact (List.mem_singleton.mp hmem).le

/-- **`rollbackCert`** moves the pointer to the greatest generation below, or leaves everything as it is. -/
theorem rollbackCert_spec (hdir : resolved cwd (nameDir certsDir name) = dir) (htidy : Tidy P dir t₀) :
    Act.Triple (Trail (Edge P B dir) base cwd (· = t₀)) (rollbackCert P certsDir name)
      (fun n => Trail (Edge P B dir) base cwd fun t => Tidy P dir t ∧ RolledBack P dir t₀ n t)
      fun _ => Trail (Edge P B dir) base cwd (· = t₀) := by
  refine Act.Triple.bind (readCurrentGeneration_spec hdir fun _ _ hv => hv) fun r => ?_
  cases r with
  | none => exact Act.Triple.throw fun v hv => hv.imp fun h => h.1
  | some current =>
    refine Act.Triple.assume (p := (archive P dir t₀).current = some current ∧ Plain dir) (fun v hv => hv.now.2 _ rfl) fun hread => ?_
    obtain ⟨hcurrent, hplain⟩ := hread
    refine Act.Triple.bind ((listGenerations_spec (by rw [hdir]; exact htidy) fun _ _ hv => hv).conseq
      (fun v hv => hv.imp fun h => h.1) (fun _ _ hv => hv) fun _ _ hv => hv) fun gens => ?_
    rw [hdir]
    refine Act.Triple.assume (p := Lists P dir t₀ gens) (fun v hv => hv.now.2 hplain) fun hlists => ?_
    split
    · exact Act.Triple.throw fun v hv => hv.imp fun h => h.1
    · rename_i previous hprevious
      have hmem := List.mem_filter.mp (List.mem_of_getLast? hprevious)
      have hhas : (archive P dir t₀).Has previous := (hlists.2 previous).mp hmem.1
      refine Act.Triple.bind ((writeCurrentGeneration_spec (n := previous) (G := (· = t₀)) hdir hplain
        (fun t ht => by rw [ht]; exact ⟨htidy, hhas⟩) fun _ _ hv => hv).conseq
        (fun v hv => hv.imp fun h => h.1) (fun _ _ hv => hv) fun _ _ hv => hv) fun _ => ?_
      refine Act.Triple.pure fun v hv => hv.imp ?_
      rintro ⟨t, rfl, htidy', harchive, -⟩
      refine ⟨htidy', current, hcurrent, hhas, by simpa using hmem.2, fun m hm hlt => ?_, harchive⟩
      exact le_getLast_filter hlists.1 hprevious ((hlists.2 m).mpr hm) hlt

/-! ### Other names -/

/-- A place below a directory. -/
def Under (dir p : List JsString) : Prop := ∃ e rest, p = dir ++ e :: rest

/-- Nothing has changed that is neither below a directory nor above it, and the directories above are still there. -/
structure Frame (dir : List JsString) (t t' : Tree) : Prop where
  elsewhere : ∀ p, ¬ dir <+: p → ¬ p <+: dir → t'.node p = t.node p
  above : ∀ p, p <+: dir → t.node p = some .dir → t'.node p = some .dir

section Frame

variable {p q : List JsString} {c : Content}

theorem Under.starts (h : Under dir p) : dir <+: p := by
  obtain ⟨e, rest, rfl⟩ := h
  exact List.prefix_append _ _

theorem Under.not_above (h : Under dir p) (hq : q <+: dir) : ¬ p <+: q := by
  obtain ⟨e, rest, rfl⟩ := h
  intro hp
  exact absurd (hp.trans hq).length_le (by simp)

theorem Frame.mkdirp (h : t.mkdirp q = some t') (hq : Under dir q) : Frame dir t t' := by
  have hnode := FileTree.node_mkdirp h
  refine ⟨fun p hbelow habove => ?_, fun p hp _ => ?_⟩
  · rw [hnode, if_neg]
    intro hp
    exact (List.prefix_or_prefix_of_prefix hq.starts hp).elim hbelow habove
  · rw [hnode, if_pos (hp.trans hq.starts)]

theorem Frame.writeFile (h : t.writeFile q c = some t') (hq : Under dir q) : Frame dir t t' := by
  have hnode := FileTree.node_writeFile h
  refine ⟨fun p hbelow _ => ?_, fun p hp hdir => ?_⟩
  · rw [hnode, if_neg]
    rintro rfl
    exact hbelow hq.starts
  · rw [hnode, if_neg, hdir]
    rintro rfl
    exact hq.not_above hp List.prefix_rfl

theorem Frame.rename (h : t.rename p q = some t') (hp : Under dir p) (hq : Under dir q) : Frame dir t t' := by
  have hnode := FileTree.node_rename h
  refine ⟨fun r hbelow _ => ?_, fun r hr hdir => ?_⟩
  · rw [hnode, if_neg fun hr => hbelow (hq.starts.trans hr), if_neg fun hr => hbelow (hp.starts.trans hr)]
  · rw [hnode, if_neg (hq.not_above hr), if_neg (hp.not_above hr), hdir]

theorem Frame.remove (hq : Under dir q) : Frame dir t (t.remove q) := by
  have hne : q ≠ [] := by
    obtain ⟨e, rest, rfl⟩ := hq
    simp
  refine ⟨fun p hbelow _ => ?_, fun p hp hdir => ?_⟩
  · rw [FileTree.node_remove hne, if_neg fun hp => hbelow (hq.starts.trans hp)]
  · rw [FileTree.node_remove hne, if_neg (hq.not_above hp), hdir]

/-- The trees have changed below the directory alone. -/
abbrev Framed (dir : List JsString) (base : Tree) (cwd : List JsString) : Volume → Prop :=
  Trail (Frame dir) base cwd fun _ => True

variable {α : Type} {R : Tree → Tree → Prop} {G : Tree → Prop} {path path' : JsString}

theorem kept_inspect {f : Tree → List JsString → Option α} : Act.Keeps (Trail R base cwd G) (inspect path f) :=
  (Trail.inspect fun _ _ hv => hv).conseq (fun _ hv => hv) (fun _ _ hv => hv.imp And.left) fun _ _ hv => hv

theorem kept_existsSync : Act.Keeps (Trail R base cwd G) (existsSync path) :=
  Trail.existsSync.conseq (fun _ hv => hv) (fun _ _ hv => hv.imp And.left) fun _ _ hv => hv

theorem framed_mkdirSync (h : Under dir (resolved cwd path)) : Act.Triple (Framed dir base cwd) (mkdirSync path)
    (fun _ => Framed dir base cwd) fun _ => Framed dir base cwd :=
  Trail.mkdirSync (fun _ _ _ _ hmk => ⟨.mkdirp hmk h, trivial⟩) fun _ _ hv => hv

theorem framed_writeFileSync (h : Under dir (resolved cwd path)) : Act.Triple (Framed dir base cwd) (writeFileSync path c)
    (fun _ => Framed dir base cwd) fun _ => Framed dir base cwd :=
  Trail.writeFileSync (fun _ _ _ hwrite => ⟨.writeFile hwrite h, trivial⟩) fun _ _ hv => hv

theorem framed_writeSent {data : Value} (h : Under dir (resolved cwd path)) : Act.Triple (Framed dir base cwd) (writeSent path data)
    (fun _ => Framed dir base cwd) fun _ => Framed dir base cwd :=
  Trail.writeSent (fun _ _ _ _ _ hwrite => ⟨.writeFile hwrite h, trivial⟩) fun _ _ hv => hv

theorem framed_renameSync (h : Under dir (resolved cwd path)) (h' : Under dir (resolved cwd path')) :
    Act.Triple (Framed dir base cwd) (renameSync path path') (fun _ => Framed dir base cwd) fun _ => Framed dir base cwd :=
  Trail.renameSync (fun _ _ _ hrename => ⟨.rename hrename h h', trivial⟩) fun _ _ hv => hv

/-- Listing changes nothing. -/
theorem kept_listGenerations : Act.Keeps (Trail R base cwd G) (listGenerations P certsDir name) := by
  refine Act.Keeps.bind kept_existsSync fun found => ?_
  cases found with
  | false => exact Act.Keeps.pure _
  | true =>
    rw [if_pos rfl]
    exact Act.Keeps.bind kept_inspect fun _ => Act.Keeps.pure _

theorem framed_writeCurrentGeneration (hdir : resolved cwd (nameDir certsDir name) = dir) :
    Act.Triple (Framed dir base cwd) (writeCurrentGeneration P certsDir name n) (fun _ => Framed dir base cwd)
      fun _ => Framed dir base cwd := by
  refine Act.Triple.bind Trail.readNow fun now => ?_
  have htmp : Under dir (resolved cwd (currentPointerPath certsDir name ++ tmpSuffix P.pid now)) :=
    ⟨_, _, resolved_tmpCurrent hdir P.pid now⟩
  have hpointer : Under dir (resolved cwd (currentPointerPath certsDir name)) := ⟨_, _, resolved_current hdir⟩
  exact Act.Triple.bind (framed_writeFileSync htmp) fun _ => framed_renameSync htmp hpointer

/-- `rollbackCert` leaves other names alone. -/
theorem framed_rollbackCert (hdir : resolved cwd (nameDir certsDir name) = dir) :
    Act.Triple (Framed dir base cwd) (rollbackCert P certsDir name) (fun _ => Framed dir base cwd)
      fun _ => Framed dir base cwd := by
  refine Act.Triple.bind (Q := fun _ => Framed dir base cwd) ?_ fun r => ?_
  · refine Act.Triple.bind kept_existsSync fun found => ?_
    cases found with
    | false => exact Act.Triple.pure fun _ hv => hv
    | true =>
      rw [if_pos rfl]
      exact Act.Triple.bind kept_inspect fun _ => Act.Triple.pure fun _ hv => hv
  · cases r with
    | none => exact Act.Triple.throw fun _ hv => hv
    | some current =>
      refine Act.Triple.bind kept_listGenerations fun gens => ?_
      split
      · exact Act.Triple.throw fun _ hv => hv
      · exact Act.Triple.bind (framed_writeCurrentGeneration hdir) fun _ => Act.Triple.pure fun _ hv => hv

/-- `storeCert` leaves other names alone. -/
theorem framed_storeNamed (hdir : resolved cwd (nameDir certsDir name) = dir) {certPem keyPem : Value} {certMeta : Json} :
    Act.Triple (Framed dir base cwd) (storeNamed P certsDir name certPem keyPem certMeta) (fun _ => Framed dir base cwd)
      fun _ => Framed dir base cwd := by
  refine Act.Triple.bind kept_listGenerations fun gens => ?_
  refine Act.Triple.bind Trail.readNow fun now => ?_
  obtain ⟨n, hn⟩ : ∃ n, n = gens.getLast?.getD 0 + 1 := ⟨_, rfl⟩
  simp only [← hn]
  have htmp : Under dir (resolved cwd (genDir certsDir name n ++ tmpSuffix P.pid now)) := ⟨_, _, resolved_tmpDir hdir n P.pid now⟩
  have hfile : ∀ file, Normal.IsName file →
      Under dir (resolved cwd (joinPath (genDir certsDir name n ++ tmpSuffix P.pid now) file)) :=
    fun file hfile => ⟨_, _, resolved_tmpFile hdir n P.pid now hfile⟩
  have hgen : ∀ m, Under dir (resolved cwd (genDir certsDir name m)) := fun m => ⟨_, _, resolved_genDir hdir m⟩
  refine Act.Triple.bind (framed_mkdirSync htmp) fun _ => ?_
  refine Act.Triple.bind (framed_writeSent (hfile _ (Normal.isName_of_length (by decide) (by decide)))) fun _ => ?_
  refine Act.Triple.bind (framed_writeSent (hfile _ (Normal.isName_of_length (by decide) (by decide)))) fun _ => ?_
  refine Act.Triple.bind Trail.readNow fun storedAt => ?_
  refine Act.Triple.bind (framed_writeFileSync (hfile _ (Normal.isName_of_length (by decide) (by decide)))) fun _ => ?_
  refine Act.Triple.bind (framed_renameSync htmp (hgen n)) fun _ => ?_
  refine Act.Triple.bind (framed_writeCurrentGeneration hdir) fun _ => ?_
  refine Act.Triple.bind (Act.Triple.forEach fun gen _ => ?_) fun _ => Act.Triple.pure fun _ hv => hv
  exact Trail.rmSync (fun t _ => ⟨.remove (hgen gen), trivial⟩) fun _ _ hv => hv

end Frame

/-! ### Steps -/

section Steps

variable {P' : Process} {s : CertStep} {steps : List CertStep}

/-- The archive depends on how numerals are read, not on the process. -/
theorem archive_process (hN : P'.N = P.N) (dir : List JsString) (t : Tree) : archive P' dir t = archive P dir t := by
  refine Archive.ext' (fun _ => rfl) ?_
  show currentAt P' dir t = currentAt P dir t
  unfold currentAt Content.integer integerOf
  rw [hN]

theorem Tidy.process (hN : P'.N = P.N) (h : Tidy P' dir t) : Tidy P dir t := by
  refine ⟨fun e he hgen n hn => h.entries e he hgen n ?_, h.pointer⟩
  unfold integerOf at hn ⊢
  rwa [hN]

theorem Edge.process (hN : P'.N = P.N) (h : Edge P' B dir t t') : Edge P B dir t t' := by
  obtain ⟨htidy, hmove⟩ := h
  rw [archive_process hN, archive_process hN] at hmove
  exact ⟨htidy.process hN, hmove⟩

theorem Edge.refl (h : Tidy P dir t) : Edge P B dir t t := ⟨h, .stay⟩

theorem tidy_of_mem {l : List Tree} (hchain : (t :: l).IsChain (Edge P B dir)) (htidy : Tidy P dir t) :
    ∀ u ∈ t :: l, Tidy P dir u := by
  induction l generalizing t with
  | nil =>
    intro u hu
    rwa [List.mem_singleton.mp hu]
  | cons t' l ih =>
    rw [List.isChain_cons_cons] at hchain
    intro u hu
    rcases List.mem_cons.mp hu with rfl | hu
    · exact htidy
    · exact ih hchain.2 hchain.1.1 u hu

/-- Changes that are edges where the directory is tidy. -/
theorem edges_of_chain {R : Tree → Tree → Prop} (hR : ∀ t t', Tidy P dir t → R t t' → Edge P B dir t t') {l : List Tree}
    (hchain : (t :: l).IsChain R) (htidy : Tidy P dir t) : (t :: l).IsChain (Edge P B dir) := by
  induction l generalizing t with
  | nil => exact List.isChain_singleton t
  | cons t' l ih =>
    rw [List.isChain_cons_cons] at hchain ⊢
    have hedge := hR t t' htidy hchain.1
    exact ⟨hedge, ih hchain.2 hedge.1⟩

/-- What is done for another name leaves the archive as it is. -/
theorem Frame.edge {name' : JsString} (hname : Normal.IsName name) (hname' : Normal.IsName name') (hne : name' ≠ name)
    (htidy : Tidy P (resolved cwd (nameDir certsDir name)) t) (h : Frame (resolved cwd (nameDir certsDir name')) t t') :
    Edge P B (resolved cwd (nameDir certsDir name)) t t' := by
  have hsame : SameBut [genName 0 ++ tmpSuffix 0 0] (resolved cwd (nameDir certsDir name)) t t' := by
    intro e _ rest
    rw [nameDir, resolved_joinPath cwd certsDir hname]
    refine h.elsewhere _ ?_ ?_
    · rw [nameDir, resolved_joinPath cwd certsDir hname', List.append_assoc, List.prefix_append_right_inj]
      exact fun hpre => hne (List.cons_prefix_cons.mp hpre).1
    · rw [nameDir, resolved_joinPath cwd certsDir hname']
      exact fun hpre => absurd hpre.length_le (by simp)
  exact edge_scratch htidy hsame (scratch_tmpDir 0 0 0)

/-- The trees of a step as far as it goes. -/
theorem trees_prefix (P : Process) (cwd : List JsString) (certsDir : JsString) (s : CertStep) (t : Tree) :
    ∃ l, s.trees P cwd certsDir t = t :: l ∧ s.trees P cwd certsDir t <+: t :: (s.outcome P cwd certsDir t).2.log := by
  unfold CertStep.trees
  split
  · exact ⟨_, rfl, List.prefix_rfl⟩
  · exact ⟨_, rfl, List.cons_prefix_cons.mpr ⟨rfl, List.take_prefix _ _⟩⟩

theorem trail_start {R : Tree → Tree → Prop} : Trail R t cwd (· = t) { cwd, tree := t } :=
  Trail.start (v := { cwd, tree := t }) (G := fun u => u = t) rfl rfl

/-- **Every change of a step** is a move of the archive of a name. -/
theorem edges_step (hname : Normal.IsName name) (hcall : Normal.IsName s.call.name)
    (hB : ∀ certPem keyPem certMeta, s.call = .store name certPem keyPem certMeta → ∀ x, IsBundle certPem keyPem certMeta x → B x)
    (htidy : Tidy P (resolved cwd (nameDir certsDir name)) t) :
    (s.trees P cwd certsDir t).IsChain (Edge P B (resolved cwd (nameDir certsDir name))) := by
  obtain ⟨-, -, hpre⟩ := trees_prefix P cwd certsDir s t
  refine List.IsChain.prefix ?_ hpre
  obtain ⟨P', hP'⟩ : ∃ P', P' = ({ P with pid := s.pid, clock := s.clock } : Process) := ⟨_, rfl⟩
  have hN : P'.N = P.N := by rw [hP']
  have hframed : ∀ {d : List JsString}, Framed d t cwd { cwd, tree := t } := trail_start.imp fun _ => trivial
  unfold CertStep.outcome
  rw [← hP']
  cases hc : s.call with
  | store name' certPem keyPem certMeta =>
    rw [hc] at hcall
    by_cases heq : name' = name
    · subst heq
      refine List.IsChain.imp (fun _ _ => Edge.process hN) ?_
      exact (storeNamed_spec rfl (htidy.process hN.symm) (hB _ _ _ hc)).final trail_start (fun _ _ hv => hv.chain) fun _ _ hv => hv.chain
    · refine edges_of_chain (fun _ _ ht => Frame.edge hname hcall heq ht) ?_ htidy
      exact (framed_storeNamed rfl).final hframed (fun _ _ hv => hv.chain) fun _ _ hv => hv.chain
  | rollback name' =>
    rw [hc] at hcall
    by_cases heq : name' = name
    · subst heq
      refine List.IsChain.imp (fun _ _ => Edge.process hN) ?_
      exact (rollbackCert_spec rfl (htidy.process hN.symm)).final trail_start (fun _ _ hv => hv.chain) fun _ _ hv => hv.chain
    · refine edges_of_chain (fun _ _ ht => Frame.edge hname hcall heq ht) ?_ htidy
      exact (framed_rollbackCert rfl).final hframed (fun _ _ hv => hv.chain) fun _ _ hv => hv.chain

theorem getLast_trees (P : Process) (cwd : List JsString) (certsDir : JsString) (s : CertStep) (t : Tree) :
    (s.trees P cwd certsDir t).getLast? = some (s.after P cwd certsDir t) := by
  obtain ⟨l, hl, -⟩ := trees_prefix P cwd certsDir s t
  rw [CertStep.after, hl, List.getLastD_eq_getLast?, List.getLast?_eq_some_getLast (List.cons_ne_nil _ _), Option.getD_some]

theorem head_history (P : Process) (cwd : List JsString) (certsDir : JsString) (t : Tree) (steps : List CertStep) :
    ∃ l, history P cwd certsDir t steps = t :: l := by
  cases steps with
  | nil => exact ⟨[], rfl⟩
  | cons s steps =>
    obtain ⟨l, hl, -⟩ := trees_prefix P cwd certsDir s t
    exact ⟨l ++ history P cwd certsDir (s.after P cwd certsDir t) steps, by rw [history, hl]; rfl⟩

/-- **Every change of a run** is a move of the archive of a name, and leaves its directory tidy. -/
theorem edges_history (hname : Normal.IsName name) (hnames : ∀ s ∈ steps, Normal.IsName s.call.name)
    (hB : ∀ s ∈ steps, ∀ certPem keyPem certMeta, s.call = .store name certPem keyPem certMeta →
      ∀ x, IsBundle certPem keyPem certMeta x → B x)
    (htidy : Tidy P (resolved cwd (nameDir certsDir name)) t) :
    (history P cwd certsDir t steps).IsChain (Edge P B (resolved cwd (nameDir certsDir name))) ∧
      Tidy P (resolved cwd (nameDir certsDir name)) (runSteps P cwd certsDir t steps) := by
  induction steps generalizing t with
  | nil => exact ⟨List.isChain_singleton t, htidy⟩
  | cons s steps ih =>
    rw [List.forall_mem_cons] at hnames hB
    have hstep := edges_step hname hnames.1 hB.1 htidy
    obtain ⟨l, hl, -⟩ := trees_prefix P cwd certsDir s t
    have hlast := getLast_trees P cwd certsDir s t
    have htidy' : Tidy P (resolved cwd (nameDir certsDir name)) (s.after P cwd certsDir t) :=
      tidy_of_mem (hl ▸ hstep) htidy _ (hl ▸ List.mem_of_getLast? hlast)
    obtain ⟨hrest, hend⟩ := ih hnames.2 hB.2 htidy'
    obtain ⟨l', hl'⟩ := head_history P cwd certsDir (s.after P cwd certsDir t) steps
    refine ⟨hstep.append hrest fun u hu w hw => ?_, hend⟩
    rw [hlast, Option.mem_some_iff] at hu
    rw [hl', List.head?_cons, Option.mem_some_iff] at hw
    rw [← hu, ← hw]
    exact Edge.refl htidy'

/-- Between any two trees of a run the archive has moved from one to the other. -/
theorem moves_of_sublist {l : List Tree} (hchain : l.IsChain (Edge P B dir)) (h : [t, t'].Sublist l) :
    Archive.Moves B (archive P dir t) (archive P dir t') := by
  have htrans : IsTrans Tree fun u w => Archive.Moves B (archive P dir u) (archive P dir w) :=
    ⟨fun _ _ _ => Relation.ReflTransGen.trans⟩
  have hpairs := List.isChain_iff_pairwise.mp (hchain.imp fun u w hedge => Relation.ReflTransGen.single hedge.2)
  exact (List.pairwise_cons.mp (hpairs.sublist h)).1 t' (List.mem_singleton_self t')

end Steps

/-! ### Whole runs -/

section Kept

variable {steps : List CertStep}

/-- There is nothing in the directory of the store. -/
def Empty (cwd : List JsString) (certsDir : JsString) (t : Tree) : Prop :=
  ∀ e rest, t.node (resolved cwd certsDir ++ e :: rest) = none

/-- What the calls of a run store under a name. -/
def StoredIn (steps : List CertStep) (name : JsString) (x : Bundle) : Prop :=
  ∃ s ∈ steps, ∃ certPem keyPem certMeta, s.call = .store name certPem keyPem certMeta ∧ IsBundle certPem keyPem certMeta x

theorem Empty.node (h : Empty cwd certsDir t₀) (hname : Normal.IsName name) (e : JsString) (rest : List JsString) :
    t₀.node (resolved cwd (nameDir certsDir name) ++ e :: rest) = none := by
  rw [nameDir, resolved_joinPath cwd certsDir hname, List.append_assoc]
  exact h _ _

theorem Empty.tidy (h : Empty cwd certsDir t₀) (hname : Normal.IsName name) :
    Tidy P (resolved cwd (nameDir certsDir name)) t₀ :=
  ⟨fun e he => absurd (h.node hname e []) he, fun x hx => by rw [h.node hname _ []] at hx; cases hx⟩

theorem Empty.bundleAt (h : Empty cwd certsDir t₀) (hname : Normal.IsName name) (n : ℤ) :
    bundleAt (resolved cwd (nameDir certsDir name)) t₀ n = none := by
  rw [Certs.bundleAt, FileTree.isDir, h.node hname]
  rfl

theorem Empty.current (h : Empty cwd certsDir t₀) (hname : Normal.IsName name) :
    (archive P (resolved cwd (nameDir certsDir name)) t₀).current = none := by
  show currentAt P _ t₀ = none
  rw [currentAt, h.node hname]

/-- A step that is not stopped leaves the tree that its call leaves. -/
theorem after_of_trail {s : CertStep} (hstop : s.stop = none) {R : Tree → Tree → Prop} {G : Tree → Prop}
    (h : Trail R t cwd G (s.outcome P cwd certsDir t).2) : G (s.after P cwd certsDir t) := by
  have hafter : s.after P cwd certsDir t = (s.outcome P cwd certsDir t).2.tree := by
    have hlast := getLast_trees P cwd certsDir s t
    rw [CertStep.trees, hstop] at hlast
    exact Option.some.inj (hlast.symm.trans h.last)
  rw [hafter]
  exact h.now

theorem Stored.process {P' : Process} (hN : P'.N = P.N) (h : Stored P' dir t n t') : Stored P dir t n t' := by
  obtain ⟨all, hsorted, hmem, hnew, hkept, hpointer⟩ := h
  simp only [archive_process hN] at hmem hnew hkept
  exact ⟨all, hsorted, hmem, hnew, hkept, hpointer⟩

theorem RolledBack.process {P' : Process} (hN : P'.N = P.N) (h : RolledBack P' dir t n t') : RolledBack P dir t n t' := by
  obtain ⟨current, hcurrent, hhas, hlt, hgreatest, harchive⟩ := h
  simp only [archive_process hN] at hcurrent hhas hgreatest harchive
  exact ⟨current, hcurrent, hhas, hlt, hgreatest, harchive⟩

/-- A store that is not stopped and returns. -/
theorem after_store {s : CertStep} (htidy : Tidy P (resolved cwd (nameDir certsDir name)) t) (hstop : s.stop = none)
    {certPem keyPem : Value} {certMeta : Json} (hc : s.call = .store name certPem keyPem certMeta)
    (h : (s.outcome P cwd certsDir t).1 = .ok n) :
    Stored P (resolved cwd (nameDir certsDir name)) t n (s.after P cwd certsDir t) := by
  obtain ⟨P', hP'⟩ : ∃ P', P' = ({ P with pid := s.pid, clock := s.clock } : Process) := ⟨_, rfl⟩
  have hN : P'.N = P.N := by rw [hP']
  have hrun : storeNamed P' certsDir name certPem keyPem certMeta { cwd, tree := t } = s.outcome P cwd certsDir t := by
    rw [CertStep.outcome, hc, hP']
    rfl
  have hspec := (storeNamed_spec rfl (htidy.process hN.symm) fun x (hx : IsBundle certPem keyPem certMeta x) => hx).returned
    trail_start (hrun.trans (Prod.ext h rfl))
  exact (after_of_trail hstop hspec).2.process hN

/-- A rollback that is not stopped. -/
theorem after_rollback {s : CertStep} (htidy : Tidy P (resolved cwd (nameDir certsDir name)) t) (hstop : s.stop = none)
    (hc : s.call = .rollback name) :
    (∀ n, (s.outcome P cwd certsDir t).1 = .ok n →
      RolledBack P (resolved cwd (nameDir certsDir name)) t n (s.after P cwd certsDir t)) ∧
    ∀ e, (s.outcome P cwd certsDir t).1 = .error e → s.after P cwd certsDir t = t := by
  obtain ⟨P', hP'⟩ : ∃ P', P' = ({ P with pid := s.pid, clock := s.clock } : Process) := ⟨_, rfl⟩
  have hN : P'.N = P.N := by rw [hP']
  have hrun : rollbackCert P' certsDir name { cwd, tree := t } = s.outcome P cwd certsDir t := by
    rw [CertStep.outcome, hc, hP']
    rfl
  have hspec := rollbackCert_spec (B := fun _ => True) rfl (htidy.process hN.symm) _ trail_start
  refine ⟨fun n h => ?_, fun e h => ?_⟩
  · have hcall : rollbackCert P' certsDir name { cwd, tree := t } = (.ok n, (s.outcome P cwd certsDir t).2) :=
      hrun.trans (Prod.ext h rfl)
    rw [hcall] at hspec
    exact (after_of_trail hstop hspec).2.process hN
  · have hcall : rollbackCert P' certsDir name { cwd, tree := t } = (.error e, (s.outcome P cwd certsDir t).2) :=
      hrun.trans (Prod.ext h rfl)
    rw [hcall] at hspec
    exact after_of_trail hstop hspec

/-- **Generations are never torn.** In every run of the store from an empty directory, whatever the names of its calls and wherever
its processes stop, and for every name: the pointer, whenever it is there, has the number of a generation whose three files come
from one call; a number that is gone does not come back and belongs to one generation; the newest generation stays; after a
store that returns there are the three newest generations, and the pointer has the new number; and a rollback moves the
pointer to the greatest generation below, or leaves everything as it is. -/
theorem generations_kept (P : Process) (cwd : List JsString) (certsDir : JsString) (hname : Normal.IsName name)
    (hempty : Empty cwd certsDir t₀) (hnames : ∀ s ∈ steps, Normal.IsName s.call.name) :
    let dir := resolved cwd (nameDir certsDir name)
    let trees := history P cwd certsDir t₀ steps
    (∀ t ∈ trees, ∀ x, t.node (dir ++ [js "current"]) = some x →
      ∃ n b, x = .file (.text (intText n)) ∧ bundleAt dir t n = some b ∧ StoredIn steps name b) ∧
    (∀ t₁ t₂ t₃, [t₁, t₂, t₃].Sublist trees → ∀ n, bundleAt dir t₁ n ≠ none → bundleAt dir t₂ n = none →
      bundleAt dir t₃ n = none) ∧
    (∀ t₁ t₂, [t₁, t₂].Sublist trees → ∀ n b₁ b₂, bundleAt dir t₁ n = some b₁ → bundleAt dir t₂ n = some b₂ → b₁ = b₂) ∧
    (∀ t₁ t₂, [t₁, t₂] <:+: trees → ∀ n, bundleAt dir t₁ n ≠ none → (∀ m, bundleAt dir t₁ m ≠ none → m ≤ n) →
      bundleAt dir t₂ n ≠ none) ∧
    ∀ before s later, steps = before ++ s :: later → s.stop = none →
      (∀ certPem keyPem certMeta n, s.call = .store name certPem keyPem certMeta →
        (s.outcome P cwd certsDir (runSteps P cwd certsDir t₀ before)).1 = .ok n →
        Stored P dir (runSteps P cwd certsDir t₀ before) n (runSteps P cwd certsDir t₀ (before ++ [s]))) ∧
      (s.call = .rollback name →
        (∀ n, (s.outcome P cwd certsDir (runSteps P cwd certsDir t₀ before)).1 = .ok n →
          RolledBack P dir (runSteps P cwd certsDir t₀ before) n (runSteps P cwd certsDir t₀ (before ++ [s]))) ∧
        ∀ e, (s.outcome P cwd certsDir (runSteps P cwd certsDir t₀ before)).1 = .error e →
          runSteps P cwd certsDir t₀ (before ++ [s]) = runSteps P cwd certsDir t₀ before) := by
  intro dir trees
  have htidy : Tidy P dir t₀ := hempty.tidy hname
  have hchain : trees.IsChain (Edge P (StoredIn steps name) dir) :=
    (edges_history hname hnames (fun s hs certPem keyPem certMeta hc x hx => ⟨s, hs, certPem, keyPem, certMeta, hc, hx⟩) htidy).1
  obtain ⟨l, hl⟩ : ∃ l, trees = t₀ :: l := head_history P cwd certsDir t₀ steps
  have hmoves : ∀ t ∈ trees, Archive.Moves (StoredIn steps name) (archive P dir t₀) (archive P dir t) := by
    intro t ht
    rw [hl] at ht
    rcases List.mem_cons.mp ht with rfl | ht
    · exact .refl
    · refine moves_of_sublist hchain ?_
      rw [hl]
      exact (List.singleton_sublist.mpr ht).cons_cons t₀
  refine ⟨fun t ht x hx => ?_, fun t₁ t₂ t₃ hsub n h₁ h₂ => ?_, fun t₁ t₂ hsub n b₁ b₂ h₁ h₂ => ?_,
    fun t₁ t₂ hsub n h₁ hnewest => ?_, fun before s later hsteps hstop => ?_⟩
  · have htidy' : Tidy P dir t := tidy_of_mem (hl ▸ hchain) htidy t (hl ▸ ht)
    obtain ⟨n, rfl⟩ := htidy'.pointer x hx
    have hcurrent : (archive P dir t).current = some n := by simp only [archive, currentAt, hx, integer_intText]
    have hsound : (archive P dir t₀).Sound := fun m hm => by
      rw [hempty.current hname] at hm
      cases hm
    obtain ⟨b, hb⟩ := Option.ne_none_iff_exists'.mp (hsound.moves (hmoves t ht) n hcurrent)
    refine ⟨n, b, rfl, hb, ((hmoves t ht).published hb).resolve_left fun hfirst => ?_⟩
    cases (hempty.bundleAt hname n).symm.trans hfirst
  · have h₁₂ := moves_of_sublist hchain (List.Sublist.trans (List.sublist_append_left [t₁, t₂] [t₃]) hsub)
    have h₂₃ := moves_of_sublist hchain (List.Sublist.trans (List.sublist_cons_self t₁ [t₂, t₃]) hsub)
    by_contra h₃
    exact Archive.Moves.gone h₁₂ h₂₃ h₁ (fun hhas => hhas h₂) h₃
  · exact Archive.Moves.same (moves_of_sublist hchain hsub) h₁ h₂
  · have hedge := List.isChain_cons_cons.mp ( List.IsChain.infix hchain hsub)
    exact hedge.1.2.newest h₁ hnewest
  · have hbefore : ∀ s ∈ before, Normal.IsName s.call.name := fun s hs => hnames s (by rw [hsteps]; exact List.mem_append_left _ hs)
    have htidy' : Tidy P dir (runSteps P cwd certsDir t₀ before) :=
      (edges_history (B := fun _ => True) hname hbefore (fun _ _ _ _ _ _ _ _ => trivial) htidy).2
    have hafter : runSteps P cwd certsDir t₀ (before ++ [s]) = s.after P cwd certsDir (runSteps P cwd certsDir t₀ before) := by
      rw [runSteps, List.foldl_append]
      rfl
    rw [hafter]
    exact ⟨fun certPem keyPem certMeta n hc h => after_store htidy' hstop hc h, fun hc => after_rollback htidy' hstop hc⟩

/-- A process at the start of time. -/
def firstProcess : Process := ⟨.exact, 1, fun _ => 0, fun _ => js "1970-01-01T00:00:00.000Z"⟩

/-- A certificate is stored. -/
def storeStep (cert : JsString) (pid : ℕ) (now : ℤ) (stop : Option ℕ) : CertStep :=
  ⟨.store (js "wildcard") (some (.str cert)) (some (.str (js "key"))) (.obj []), pid, fun _ => now, stop⟩

/-- A certificate and its renewal. -/
def twoStores : List CertStep := [storeStep (js "first") 1 0 none, storeStep (js "second") 2 1 none]

/-- The renewal is taken back. -/
def rollbackStep : CertStep := ⟨.rollback (js "wildcard"), 3, fun _ => 2, none⟩

/-- Two certificates are stored and the second one is taken back; the process that stores a third one stops in the
middle. -/
def storeAndRollback : List CertStep := twoStores ++ rollbackStep :: [storeStep (js "third") 4 3 (some 4)]

/-- The directory of the certificate. -/
def wildcardDir : List JsString := resolved [] (nameDir (js "/certs") (js "wildcard"))

/-- The rollback moves the pointer from the second generation to the first one. -/
theorem generations_kept_wildcard :
    (∀ t ∈ history firstProcess [] (js "/certs") .empty storeAndRollback, ∀ x,
      t.node (wildcardDir ++ [js "current"]) = some x →
      ∃ n b, x = .file (.text (intText n)) ∧ bundleAt wildcardDir t n = some b ∧ StoredIn storeAndRollback (js "wildcard") b) ∧
    (∀ t₁ t₂, [t₁, t₂].Sublist (history firstProcess [] (js "/certs") .empty storeAndRollback) → ∀ n b₁ b₂,
      bundleAt wildcardDir t₁ n = some b₁ → bundleAt wildcardDir t₂ n = some b₂ → b₁ = b₂) ∧
    RolledBack firstProcess wildcardDir (runSteps firstProcess [] (js "/certs") .empty twoStores) 1
      (runSteps firstProcess [] (js "/certs") .empty (twoStores ++ [rollbackStep])) := by
  have hname : Normal.IsName (js "wildcard") := Normal.isName_of_length (by decide) (by decide)
  have hcerts : resolved [] (js "/certs") = [js "certs"] := by decide
  have hempty : Empty [] (js "/certs") .empty := by
    intro e rest
    rw [hcerts]
    rfl
  have hnames : ∀ s ∈ storeAndRollback, Normal.IsName s.call.name := by
    intro s hs
    simp only [storeAndRollback, twoStores, List.cons_append, List.nil_append, List.mem_cons, List.not_mem_nil, or_false] at hs
    rcases hs with rfl | rfl | rfl | rfl
    all_goals exact hname
  have hreturns : (rollbackStep.outcome firstProcess [] (js "/certs")
      (runSteps firstProcess [] (js "/certs") .empty twoStores)).1 = .ok 1 := by
    have hok : (rollbackStep.outcome firstProcess [] (js "/certs")
        (runSteps firstProcess [] (js "/certs") .empty twoStores)).1.toOption = some 1 := by
      decide +kernel
    cases hcall : (rollbackStep.outcome firstProcess [] (js "/certs")
      (runSteps firstProcess [] (js "/certs") .empty twoStores)).1 with
    | ok n =>
      rw [hcall] at hok
      rw [Option.some.inj hok]
    | error e =>
      rw [hcall] at hok
      cases hok
  have hkept := generations_kept firstProcess [] (js "/certs") hname hempty hnames
  refine ⟨hkept.1, hkept.2.2.1, ?_⟩
  exact ((hkept.2.2.2.2 twoStores rollbackStep _ rfl rfl).2 rfl).1 1 hreturns

end Kept

end Wanfw.Orchestrator.Certs
