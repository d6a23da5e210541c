import Wanfw.Js.Path
import Wanfw.Js.Values
import Wanfw.Orchestrator.Cidr
import Wanfw.Orchestrator.World
import Wanfw.Store.FileTree

/-!
# The certificate store

`certs/store.ts`: below the directory of a certificate name there is a directory `gen-<N>` for
each generation and a file `current` with the number of the one that is served. A new
generation is made under a temporary name and then renamed; so is `current`.

The functions are actions on a `Volume`, a file tree that remembers the trees it went
through. Each change of the file system is one action (`change`): it fails and changes
nothing, or it makes its change. The process may stop between any two changes; what it
leaves then is one of the trees on the way.

Modes are left out. The JSON that is written to a file is kept as a value; what
`JSON.stringify` makes of it is read back as that value.
-/

namespace Wanfw.Orchestrator.Certs

open Wanfw.Js Wanfw.Store

/-! ### The file system -/

/-- What a file holds. -/
inductive Content where
  | text (t : JsString)
  | json (o : Obj Json)
  | renewalState (state : RenewalState)

abbrev Tree := FileTree JsString Content

/-- The file system of the process. -/
structure Volume where
  /-- `process.cwd()`. -/
  cwd : List JsString
  tree : Tree
  /-- The trees since the start, the newest last. -/
  log : List Tree := []
  /-- How often the clock was read. -/
  ticks : ℕ := 0

/-- Where a path leads. A path with a NUL in it is refused. -/
@[irreducible] def Volume.place (v : Volume) (path : JsString) : Option (List JsString) :=
  if (resolved v.cwd path).any fun s => s.contains 0 then none else some (resolved v.cwd path)

/-- An error of the file system. -/
def failed : JsError := .error (js "the file system failed")

/-- A change of the tree. -/
def change (f : Tree → Option Tree) : Act Volume Unit := fun v =>
  match f v.tree with
  | some tree => (.ok (), { v with tree := tree, log := v.log ++ [tree] })
  | none => (.error failed, v)

/-- Look at what a path leads to. -/
def inspect {α : Type} (path : JsString) (f : Tree → List JsString → Option α) : Act Volume α := fun v =>
  match (v.place path).bind (f v.tree) with
  | some a => (.ok a, v)
  | none => (.error failed, v)

/-- An operation on a path. -/
def onPath {α : Type} (path : JsString) (f : List JsString → Act Volume α) : Act Volume α := fun v =>
  match v.place path with
  | some p => f p v
  | none => (.error failed, v)

/-- `existsSync`. -/
def existsSync (path : JsString) : Act Volume Bool := fun v =>
  (.ok ((v.place path).any fun p => (v.tree.node p).isSome), v)

/-- `readFileSync`. -/
def readFileSync (path : JsString) : Act Volume Content := inspect path FileTree.readFile

/-- `readdirSync(path)`, of the entries that `statSync` calls directories. -/
def readSubdirectories (path : JsString) : Act Volume (List JsString) :=
  inspect path fun t p => (t.readdir p).map fun entries => entries.filter fun e => t.isDir (p ++ [e])

/-- `mkdirSync(path, { recursive: true })`. -/
def mkdirSync (path : JsString) : Act Volume Unit := onPath path fun p => change fun t => t.mkdirp p

/-- `writeFileSync`. -/
def writeFileSync (path : JsString) (c : Content) : Act Volume Unit := onPath path fun p => change fun t => t.writeFile p c

/-- `renameSync`. -/
def renameSync (oldPath newPath : JsString) : Act Volume Unit :=
  onPath oldPath fun p => onPath newPath fun q => change fun t => t.rename p q

/-- `rmSync(path, { recursive: true, force: true })`. -/
def rmSync (path : JsString) : Act Volume Unit := onPath path fun p => change fun t => some (t.remove p)

/-- `writeFileSync` of what was sent: only a text is written. -/
def writeSent (path : JsString) (data : Value) : Act Volume Unit :=
  match data with
  | some (.str t) => writeFileSync path (.text t)
  | _ => Act.throw (.typeError (js "The \"data\" argument must be of type string"))

/-! ### Names -/

/-- The name of a generation's directory. -/
def genName (gen : ℤ) : JsString := js "gen-" ++ intText gen

/-- `RETAINED_GENERATIONS`. -/
def retainedGenerations : ℕ := 3

/-- What the process has besides its files. -/
structure Process where
  N : Numerals
  pid : ℕ
  /-- The readings of the clock. -/
  clock : ℕ → ℤ
  toISOString : ℤ → JsString

variable (P : Process) (certsDir : JsString)

/-- `nameDir`. -/
def nameDir (name : JsString) : JsString := joinPath certsDir name

/-- `genDir`. -/
def genDir (name : JsString) (gen : ℤ) : JsString := joinPath (nameDir certsDir name) (genName gen)

/-- `currentPointerPath`. -/
def currentPointerPath (name : JsString) : JsString := joinPath (nameDir certsDir name) (js "current")

/-- `renewalStatePath`. -/
def renewalStatePath (name : JsString) : JsString := joinPath (nameDir certsDir name) (js "renewal-state.json")

/-- A reading of the clock. -/
def readNow : Act Volume ℤ := fun v => (.ok (P.clock v.ticks), { v with ticks := v.ticks + 1 })

/-- The end of a temporary name, with the pid and the time. -/
def tmpSuffix (pid : ℕ) (now : ℤ) : JsString := js ".tmp-" ++ natToString pid ++ js "-" ++ intText now

/-- The integer that a text is a number for, if it is one. -/
def integerOf (text : JsString) : Option ℤ := (toNumber P.N text).bind intOf

/-! ### The store -/

/-- The integer that a file holds; the text of an object is no number. -/
def Content.integer : Content → Option ℤ
  | .text raw => integerOf P (trim raw)
  | _ => none

/-- `readCurrentGeneration`. -/
def readCurrentGeneration (name : JsString) : Act Volume (Option ℤ) := do
  let path := currentPointerPath certsDir name
  if ← existsSync path then
    let raw ← readFileSync path
    return raw.integer P
  else return none

/-- `writeCurrentGeneration`. -/
def writeCurrentGeneration (name : JsString) (gen : ℤ) : Act Volume Unit := do
  let path := currentPointerPath certsDir name
  let now ← readNow P
  let tmp := path ++ tmpSuffix P.pid now
  writeFileSync tmp (.text (intText gen))
  renameSync tmp path

/-- `listGenerations`. -/
def listGenerations (name : JsString) : Act Volume (List ℤ) := do
  let dir := nameDir certsDir name
  if ← existsSync dir then
    let entries ← readSubdirectories dir
    let numbers := (entries.filter fun entry => startsWith entry (js "gen-")).filterMap fun entry => integerOf P (entry.drop 4)
    return sortBy (fun a b => a - b) numbers
  else return []

/-- The object that is written to `meta.json`. -/
def storedMeta (certMeta : Json) (storedAt : JsString) : Obj Json :=
  Obj.spread [] (Value.ownProps (some certMeta) ++ [(js "storedAt", .str storedAt)])

/-- `storeCert`, for a name that is a text. -/
def storeNamed (name : JsString) (certPem keyPem : Value) (certMeta : Json) : Act Volume ℤ := do
  let existingGenerations ← listGenerations P certsDir name
  let nextGen := (existingGenerations.getLast?.getD 0) + 1
  let finalDir := genDir certsDir name nextGen
  let now ← readNow P
  let tmpDir := finalDir ++ tmpSuffix P.pid now
  mkdirSync tmpDir
  writeSent (joinPath tmpDir (js "fullchain.pem")) certPem
  writeSent (joinPath tmpDir (js "key.pem")) keyPem
  let storedAt ← readNow P
  writeFileSync (joinPath tmpDir (js "meta.json")) (.json (storedMeta certMeta (P.toISOString storedAt)))
  renameSync tmpDir finalDir
  writeCurrentGeneration P certsDir name nextGen
  let allGenerations := sortBy (fun a b => a - b) (existingGenerations ++ [nextGen])
  let toPrune := allGenerations.take (allGenerations.length - retainedGenerations)
  Act.forEach toPrune fun gen => rmSync (genDir certsDir name gen)
  return nextGen

/-- `storeCert`; `join` takes texts only. -/
def storeCert (name certPem keyPem : Value) (certMeta : Json) : Act Volume ℤ :=
  match name with
  | some (.str name) => storeNamed P certsDir name certPem keyPem certMeta
  | _ => Act.throw (.typeError (js "The \"path\" argument must be of type string"))

/-- `currentCertPaths`. -/
def currentCertPaths (name : JsString) : Act Volume (Option (JsString × JsString)) := do
  match ← readCurrentGeneration P certsDir name with
  | none => return none
  | some gen =>
    let dir := genDir certsDir name gen
    if ← existsSync (joinPath dir (js "fullchain.pem")) then
      return some (joinPath dir (js "fullchain.pem"), joinPath dir (js "key.pem"))
    else return none

/-- `rollbackCert`. -/
def rollbackCert (name : JsString) : Act Volume ℤ := do
  match ← readCurrentGeneration P certsDir name with
  | none => Act.throw (.error (js "no cert named '" ++ name ++ js "' has ever been stored"))
  | some current =>
    let generations ← listGenerations P certsDir name
    match (generations.filter fun g => g < current).getLast? with
    | none => Act.throw (.error (js "no earlier generation to roll back to for '" ++ name ++ js "' (current is gen-" ++
        intText current ++ js ")"))
    | some previous =>
      writeCurrentGeneration P certsDir name previous
      return previous

/-! ### Reading it -/

/-- A renewal state as it is written. -/
def stateToJson (state : RenewalState) : Obj Json := Value.object [
  (js "lastAttemptAt", state.lastAttemptAt.map .str), (js "lastSuccessAt", state.lastSuccessAt.map .str),
  (js "consecutiveFailures", some (.num (.ofNat state.consecutiveFailures))),
  (js "lastError", state.lastError.map fun message => .obj [(js "message", .str message)])]

/-- `JSON.parse` of what a file holds. -/
def Content.parsed : Content → Option Json
  | .text t => parse P.N t
  | .json o => some (.obj o)
  | .renewalState state => some (.obj (stateToJson state))

/-- `readMeta`. What is thrown on the way is caught. -/
def readMeta (name : JsString) (gen : ℤ) : Act Volume Value := do
  let path := joinPath (genDir certsDir name gen) (js "meta.json")
  if ← existsSync path then
    Act.tryCatch (do return (← readFileSync path).parsed P) fun _ => return none
  else return none

/-- `readRenewalState`. What is thrown on the way is caught; nothing but a renewal state is written to this file. -/
def readRenewalState (name : JsString) : Act Volume RenewalState := do
  let path := renewalStatePath certsDir name
  if ← existsSync path then
    Act.tryCatch (do
      match ← readFileSync path with
      | .renewalState state => return state
      | _ => return {}) fun _ => return {}
  else return {}

/-- `writeRenewalState`. -/
def writeRenewalState (name : JsString) (state : RenewalState) : Act Volume Unit := do
  mkdirSync (nameDir certsDir name)
  let path := renewalStatePath certsDir name
  let now ← readNow P
  let tmp := path ++ tmpSuffix P.pid now
  writeFileSync tmp (.renewalState state)
  renameSync tmp path

/-- `CertListEntry`. -/
structure CertListEntry where
  name : JsString
  currentGeneration : ℤ
  generations : List ℤ
  certMeta : Value
  renewal : RenewalState

/-- The entry of a name. -/
def certListEntry (name : JsString) : Act Volume CertListEntry := do
  let generations ← listGenerations P certsDir name
  let current ← readCurrentGeneration P certsDir name
  let currentGeneration := (current.or generations.getLast?).getD 0
  let certMeta ← readMeta P certsDir name currentGeneration
  let renewal ← readRenewalState certsDir name
  return ⟨name, currentGeneration, generations, certMeta, renewal⟩

/-- `listCerts`. -/
def listCerts (localeCompare : JsString → JsString → ℤ) : Act Volume (List CertListEntry) := do
  if ← existsSync certsDir then
    let names ← readSubdirectories certsDir
    let entries ← Act.collect names fun name => do return [← certListEntry P certsDir name]
    return sortBy (fun a b => localeCompare a.name b.name) entries
  else return []

/-! ### What the operations do -/

section Trail

/-- From `base` on, each tree has led to the next by `R`; the last one satisfies `G`. -/
structure Trail (R : Tree → Tree → Prop) (base : Tree) (cwd : List JsString) (G : Tree → Prop) (v : Volume) : Prop where
  chain : (base :: v.log).IsChain R
  last : (base :: v.log).getLast? = some v.tree
  cwd : v.cwd = cwd
  now : G v.tree

variable {R : Tree → Tree → Prop} {base : Tree} {cwd : List JsString} {G G' : Tree → Prop} {α β : Type}
  {Q : α → Volume → Prop} {E : JsError → Volume → Prop} {v : Volume} {path : JsString}

theorem Trail.imp (h : Trail R base cwd G v) (himp : G v.tree → G' v.tree) : Trail R base cwd G' v :=
  ⟨h.chain, h.last, h.cwd, himp h.now⟩

theorem Trail.start (h : G v.tree) (hlog : v.log = []) : Trail R v.tree v.cwd G v :=
  ⟨by simp [hlog], by simp [hlog], rfl, h⟩

theorem Trail.step {t' : Tree} (hv : Trail R base cwd G v) (hstep : R v.tree t') (hgoal : G' t') :
    Trail R base cwd G' { v with tree := t', log := v.log ++ [t'] } := by
  refine ⟨?_, ?_, hv.cwd, hgoal⟩
  · rw [← List.cons_append, List.isChain_append]
    refine ⟨hv.chain, List.isChain_singleton _, fun t ht u hu => ?_⟩
    rw [hv.last, Option.mem_some_iff] at ht
    rw [List.head?_cons, Option.mem_some_iff] at hu
    rwa [← ht, ← hu]
  · rw [← List.cons_append, List.getLast?_concat]

/-- A change leads on by one tree, or fails. -/
theorem Trail.change {f : Tree → Option Tree} (h : ∀ t t', G t → f t = some t' → R t t' ∧ G' t')
    (hE : ∀ e v, Trail R base cwd G v → E e v) :
    Act.Triple (Trail R base cwd G) (change f) (fun _ => Trail R base cwd G') E := by
  intro v hv
  unfold Certs.change
  cases hf : f v.tree with
  | none => exact hE _ v hv
  | some t' =>
    obtain ⟨hstep, hgoal⟩ := h v.tree t' hv.now hf
    exact hv.step hstep hgoal

/-- A change that does not fail. -/
theorem Trail.change_ok {f : Tree → Option Tree} (h : ∀ t, G t → ∃ t', f t = some t' ∧ R t t' ∧ G' t') :
    Act.Triple (Trail R base cwd G) (Certs.change f) (fun _ => Trail R base cwd G') E := by
  intro v hv
  obtain ⟨t', hf, hstep, hgoal⟩ := h v.tree hv.now
  unfold Certs.change
  rw [hf]
  exact hv.step hstep hgoal

/-- No name has a NUL in it. -/
def Plain (p : List JsString) : Prop := ∀ s ∈ p, (0 : UInt16) ∉ s

theorem place_cases (v : Volume) (path : JsString) : (¬ Plain (resolved v.cwd path) ∧ v.place path = none) ∨
    (Plain (resolved v.cwd path) ∧ v.place path = some (resolved v.cwd path)) := by
  unfold Volume.place Plain
  by_cases hnul : ((resolved v.cwd path).any fun s => s.contains 0) = true
  · exact .inl ⟨by simpa using hnul, if_pos hnul⟩
  · exact .inr ⟨by simpa using hnul, if_neg hnul⟩

theorem Trail.onPath {f : List JsString → Act Volume α}
    (h : Plain (resolved cwd path) → Act.Triple (Trail R base cwd G) (f (resolved cwd path)) Q E)
    (hE : ∀ e v, Trail R base cwd G v → E e v) : Act.Triple (Trail R base cwd G) (onPath path f) Q E := by
  intro v hv
  unfold Certs.onPath
  have hcases := place_cases v path
  rw [hv.cwd] at hcases
  rcases hcases with ⟨-, hplace⟩ | ⟨hplain, hplace⟩
  · rw [hplace]
    exact hE _ v hv
  · rw [hplace]
    exact h hplain v hv

theorem Trail.onPath_plain {f : List JsString → Act Volume α} (hplain : Plain (resolved cwd path))
    (h : Act.Triple (Trail R base cwd G) (f (resolved cwd path)) Q E) : Act.Triple (Trail R base cwd G) (Certs.onPath path f) Q E := by
  intro v hv
  unfold Certs.onPath
  have hcases := place_cases v path
  rw [hv.cwd] at hcases
  rcases hcases with ⟨hnul, -⟩ | ⟨-, hplace⟩
  · exact absurd hplain hnul
  · rw [hplace]
    exact h v hv

/-- What is seen is there; nothing is changed. -/
theorem Trail.inspect {f : Tree → List JsString → Option α} (hE : ∀ e v, Trail R base cwd G v → E e v) :
    Act.Triple (Trail R base cwd G) (inspect path f)
      (fun a => Trail R base cwd fun t => G t ∧ f t (resolved cwd path) = some a) E := by
  intro v hv
  unfold Certs.inspect
  have hcases := place_cases v path
  rw [hv.cwd] at hcases
  rcases hcases with ⟨-, hplace⟩ | ⟨-, hplace⟩
  · rw [hplace]
    exact hE _ v hv
  · rw [hplace, Option.bind_some]
    cases hf : f v.tree (resolved cwd path) with
    | none => exact hE _ v hv
    | some a => exact hv.imp fun hG => ⟨hG, hf⟩

/-- Looking at what is there. -/
theorem Trail.inspect_ok {f : Tree → List JsString → Option α}
    (h : ∀ t, G t → Plain (resolved cwd path) ∧ ∃ a, f t (resolved cwd path) = some a) :
    Act.Triple (Trail R base cwd G) (Certs.inspect path f)
      (fun a => Trail R base cwd fun t => G t ∧ f t (resolved cwd path) = some a) E := by
  intro v hv
  obtain ⟨hplain, a, ha⟩ := h v.tree hv.now
  unfold Certs.inspect
  have hcases := place_cases v path
  rw [hv.cwd] at hcases
  rw [(hcases.resolve_left fun hnul => hnul.1 hplain).2, Option.bind_some, ha]
  exact hv.imp fun hG => ⟨hG, ha⟩

theorem Trail.readFileSync (hE : ∀ e v, Trail R base cwd G v → E e v) :
    Act.Triple (Trail R base cwd G) (readFileSync path)
      (fun c => Trail R base cwd fun t => G t ∧ t.node (resolved cwd path) = some (.file c)) E :=
  (Trail.inspect hE).conseq (fun _ hv => hv) (fun _ _ hv => hv.imp fun h => ⟨h.1, FileTree.readFile_iff.mp h.2⟩) fun _ _ hv => hv

theorem Trail.readSubdirectories (hE : ∀ e v, Trail R base cwd G v → E e v) :
    Act.Triple (Trail R base cwd G) (readSubdirectories path) (fun entries => Trail R base cwd fun t => G t ∧
      (t.readdir (resolved cwd path)).map (fun all => all.filter fun e => t.isDir (resolved cwd path ++ [e])) = some entries) E :=
  Trail.inspect hE

/-- Whether there is something: where nothing is found, there is nothing, or the path has a NUL in it. -/
theorem Trail.existsSync : Act.Triple (Trail R base cwd G) (existsSync path)
    (fun b => Trail R base cwd fun t => G t ∧ (b = true → Plain (resolved cwd path) ∧ t.node (resolved cwd path) ≠ none) ∧
      (b = false → Plain (resolved cwd path) → t.node (resolved cwd path) = none)) E := by
  intro v hv
  unfold Certs.existsSync
  dsimp only
  have hcases := place_cases v path
  rw [hv.cwd] at hcases
  refine hv.imp fun hG => ⟨hG, ?_⟩
  rcases hcases with ⟨hnul, hplace⟩ | ⟨hplain, hplace⟩
  · rw [hplace]
    exact ⟨(fun h => nomatch h), fun _ hplain => absurd hplain hnul⟩
  · rw [hplace]
    simp only [Option.any_some, Option.isSome_iff_ne_none]
    exact ⟨fun h => ⟨hplain, h⟩, fun h _ => by simpa using h⟩

theorem Trail.readNow {P : Process} : Act.Triple (Trail R base cwd G) (readNow P) (fun _ => Trail R base cwd G) E :=
  fun _ hv => ⟨hv.chain, hv.last, hv.cwd, hv.now⟩

variable {c : Content} {data : Value}

theorem Trail.mkdirSync
    (h : ∀ t t', Plain (resolved cwd path) → G t → t.mkdirp (resolved cwd path) = some t' → R t t' ∧ G' t')
    (hE : ∀ e v, Trail R base cwd G v → E e v) :
    Act.Triple (Trail R base cwd G) (mkdirSync path) (fun _ => Trail R base cwd G') E :=
  Trail.onPath (fun hplain => Trail.change (fun t t' => h t t' hplain) hE) hE

theorem Trail.writeFileSync (h : ∀ t t', G t → t.writeFile (resolved cwd path) c = some t' → R t t' ∧ G' t')
    (hE : ∀ e v, Trail R base cwd G v → E e v) :
    Act.Triple (Trail R base cwd G) (writeFileSync path c) (fun _ => Trail R base cwd G') E :=
  Trail.onPath (fun _ => Trail.change h hE) hE

/-- Directories that can be made. -/
theorem Trail.mkdirSync_ok (hplain : Plain (resolved cwd path))
    (h : ∀ t, G t → ∃ t', t.mkdirp (resolved cwd path) = some t' ∧ R t t' ∧ G' t') :
    Act.Triple (Trail R base cwd G) (Certs.mkdirSync path) (fun _ => Trail R base cwd G') E :=
  Trail.onPath_plain hplain (Trail.change_ok h)

/-- A file that can be written. -/
theorem Trail.writeFileSync_ok (hplain : Plain (resolved cwd path))
    (h : ∀ t, G t → ∃ t', t.writeFile (resolved cwd path) c = some t' ∧ R t t' ∧ G' t') :
    Act.Triple (Trail R base cwd G) (Certs.writeFileSync path c) (fun _ => Trail R base cwd G') E :=
  Trail.onPath_plain hplain (Trail.change_ok h)

theorem Trail.writeSent
    (h : ∀ s t t', data = some (.str s) → G t → t.writeFile (resolved cwd path) (.text s) = some t' → R t t' ∧ G' t')
    (hE : ∀ e v, Trail R base cwd G v → E e v) :
    Act.Triple (Trail R base cwd G) (writeSent path data) (fun _ => Trail R base cwd G') E := by
  unfold Certs.writeSent
  split
  · exact Trail.writeFileSync (fun t t' => h _ t t' rfl) hE
  · exact Act.Triple.throw (hE _)

theorem Trail.renameSync {path' : JsString}
    (h : ∀ t t', G t → t.rename (resolved cwd path) (resolved cwd path') = some t' → R t t' ∧ G' t')
    (hE : ∀ e v, Trail R base cwd G v → E e v) :
    Act.Triple (Trail R base cwd G) (renameSync path path') (fun _ => Trail R base cwd G') E :=
  Trail.onPath (fun _ => Trail.onPath (fun _ => Trail.change h hE) hE) hE

/-- Renaming a file that is there, where no directory is in its way. -/
theorem Trail.renameSync_ok {path' : JsString} (hplain : Plain (resolved cwd path)) (hplain' : Plain (resolved cwd path'))
    (h : ∀ t, G t → ∃ t', t.rename (resolved cwd path) (resolved cwd path') = some t' ∧ R t t' ∧ G' t') :
    Act.Triple (Trail R base cwd G) (Certs.renameSync path path') (fun _ => Trail R base cwd G') E :=
  Trail.onPath_plain hplain (Trail.onPath_plain hplain' (Trail.change_ok h))

theorem Trail.rmSync (h : ∀ t, G t → R t (t.remove (resolved cwd path)) ∧ G' (t.remove (resolved cwd path)))
    (hE : ∀ e v, Trail R base cwd G v → E e v) :
    Act.Triple (Trail R base cwd G) (rmSync path) (fun _ => Trail R base cwd G') E := by
  refine Trail.onPath (fun _ => Trail.change (fun t t' hG heq => ?_) hE) hE
  cases heq
  exact h t hG

end Trail

end Wanfw.Orchestrator.Certs
