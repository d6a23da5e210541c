import Wanfw.Js.JsonParse
import Wanfw.Js.Values
import Wanfw.Orchestrator.Collection
import Wanfw.Orchestrator.Run

/-!
# The documents

`desired-state/loader.ts`: the files of a directory are listed, each is read, parsed,
validated and migrated, and becomes a document or an error; LOAD fails the run when
there is an error. A file that cannot be read is such an error. A directory that
cannot be listed is not: it counts as empty.

`neverCollected_iff`: OBSERVE spares the services whose documents are there exactly
when the directory was listed, unless something else stops the run before.
-/

namespace Wanfw.Orchestrator

open Wanfw.Js

/-! ### Files -/

/-- A directory entry, with the text of the file. -/
structure DirEntry where
  name : JsString
  isFile : Bool
  text : JsString

/-- `wanfw_desired`: the entries of its two directories. -/
structure DesiredDir where
  services : List DirEntry
  plugins : List DirEntry

/-- Which reads fail, and how: of a directory, by its path, and of a file. -/
structure ReadFaults where
  listing : JsString → Option JsString
  file : JsString → Option JsString

/-- What the loader is given: the compiled schemas, with the errors they report (`instancePath` and
`message`), and the language's parser. -/
structure LoaderDeps where
  envelope : Json → Option (List (JsString × JsString))
  framework : Json → Option (List (JsString × JsString))
  service : Json → Option (List (JsString × JsString))
  pluginConfig : Json → Option (List (JsString × JsString))
  numerals : Numerals
  /-- The message of the `SyntaxError` for a text that is no JSON. -/
  syntaxError : JsString → JsString

/-! ### Documents -/

/-- `LoadedDocument`. -/
structure LoadedDocument where
  kind : JsString
  id : JsString
  spec : Json
  needsPersist : Option Decimal

/-- A property that is a string. -/
def textProp (v : Json) (k : String) : Option JsString :=
  match v.prop (js k) with
  | some (.str s) => some s
  | _ => none

/-- A property that is a number. -/
def numProp (v : Json) (k : String) : Option Decimal :=
  match v.prop (js k) with
  | some (.num d) => some d
  | _ => none

/-- A property that is a boolean. -/
def boolProp (v : Json) (k : String) : Option Bool :=
  match v.prop (js k) with
  | some (.bool b) => some b
  | _ => none

/-- The errors of a schema, as one text. -/
def details (errors : List (JsString × JsString)) : JsString :=
  join (errors.map fun e => (if e.1 = [] then js "/" else e.1) ++ js " " ++ e.2) (js "; ")

section Loader

variable (deps : LoaderDeps)

/-- `kindValidator`. -/
def kindValidator (kind : JsString) (spec : Json) : Option (List (JsString × JsString)) :=
  if kind = js "Framework" then deps.framework spec
  else if kind = js "Service" then deps.service spec
  else if kind = js "PluginConfig" then deps.pluginConfig spec
  else none

/-- `migrateDocumentSpec`. There are no migrations yet, so that a document of an older version stays as it is. -/
def migrateDocumentSpec (kind id : JsString) (schemaVersion : Decimal) (spec : Json) :
    Except JsString (Json × Option Decimal) :=
  if 1 < schemaVersion.toRat then
    .error (js "document " ++ kind ++ js "/" ++ id ++ js " has schemaVersion " ++ numberToString schemaVersion ++
      js ", newer than this orchestrator knows (1). Upgrade the framework.")
  else .ok (spec, none)

/-- `validateEnvelope`: the document, or the message of the error. -/
def validateEnvelope (raw : Json) : Except JsString LoadedDocument :=
  match deps.envelope raw with
  | some errors => .error (js "envelope invalid: " ++ details errors)
  | none =>
    let kind := (textProp raw "kind").getD []
    let id := (textProp ((raw.prop (js "metadata")).getD .null) "id").getD []
    let spec := (raw.prop (js "spec")).getD .null
    match kindValidator deps kind spec with
    | some errors => .error (js "spec invalid: " ++ details errors)
    | none =>
      match migrateDocumentSpec kind id ((numProp raw "schemaVersion").getD (.ofNat 0)) spec with
      | .error message => .error message
      | .ok (spec, needsPersist) => .ok ⟨kind, id, spec, needsPersist⟩

/-- `loadOneDocument`. -/
def loadOneDocument (faults : ReadFaults) (file : JsString × JsString) : Except JsString LoadedDocument :=
  match faults.file file.1 with
  | some message => .error (js "could not read/parse: " ++ message)
  | none =>
    match parse deps.numerals file.2 with
    | none => .error (js "could not read/parse: " ++ deps.syntaxError file.2)
    | some raw => validateEnvelope deps raw

/-- The entry is a file with the ending `.json`. -/
def DirEntry.isJson (e : DirEntry) : Bool := e.isFile && endsWith e.name (js ".json")

/-- `listJsonFiles`: the paths, with the texts; nothing if the directory cannot be listed. -/
def listJsonFiles (faults : ReadFaults) (dir : JsString) (entries : List DirEntry) : List (JsString × JsString) :=
  match faults.listing dir with
  | some _ => []
  | none => (entries.filter DirEntry.isJson).map fun e => (dir ++ js "/" ++ e.name, e.text)

/-! ### The desired state -/

/-- The framework document. -/
def LoadedDocument.toFramework (doc : LoadedDocument) : Framework where
  domain := textProp doc.spec "domain"
  roles := (Value.ownProps (doc.spec.prop (js "roles"))).filterMap fun e =>
    match e.2 with
    | .str s => some (e.1, s)
    | _ => none
  strictApprovals := textProp doc.spec "strictApprovals"
  macvlan := ((doc.spec.prop (js "network")).bind fun n => n.prop (js "macvlan")).map fun m =>
    ⟨textProp m "parent", textProp m "reservedCidr", textProp m "gateway"⟩

/-- A document of the services directory. -/
def LoadedDocument.toService (doc : LoadedDocument) : Service where
  id := doc.id
  deployPlugin := (doc.spec.prop (js "deploy")).bind fun d => textProp d "plugin"
  expose := (doc.spec.prop (js "expose")).map fun e =>
    ⟨(textProp e "hostname").getD [], (numProp e "backendPort").getD (.ofNat 0),
      (textProp e "backendProtocol").getD [], boolProp e "removeVolumesOnDelete"⟩
  spec := doc.spec
  needsPersist := doc.needsPersist

/-- `services.set(id, doc)`, on the list of services. -/
def setService (services : List Service) (s : Service) : List Service :=
  if services.any fun t => t.id == s.id then services.map fun t => if t.id == s.id then s else t else services ++ [s]

theorem ids_setService (services : List Service) (s : Service) : (setService services s).map (·.id) =
    if s.id ∈ services.map (·.id) then services.map (·.id) else services.map (·.id) ++ [s.id] := by
  unfold setService
  by_cases h : s.id ∈ services.map (·.id)
  · have hany : (services.any fun t => t.id == s.id) = true := by simpa [List.any_eq_true] using h
    rw [if_pos hany, if_pos h, List.map_map]
    refine List.map_congr_left fun t _ => ?_
    by_cases ht : t.id = s.id <;> simp [ht]
  · have hany : ¬ (services.any fun t => t.id == s.id) = true := by simpa [List.any_eq_true] using h
    rw [if_neg hany, if_neg h, List.map_append, List.map_singleton]

theorem nodup_setService {services : List Service} (h : (services.map (·.id)).Nodup) (s : Service) :
    ((setService services s).map (·.id)).Nodup := by
  rw [ids_setService]
  split
  · exact h
  · rename_i hnew
    exact List.nodup_append.mpr ⟨h, List.nodup_singleton _, by
      rintro _ ha _ hb rfl
      exact hnew (List.mem_singleton.mp hb ▸ ha)⟩

/-- `state.services.set(doc.id, doc)`. -/
def DesiredState.setService (ds : DesiredState) (s : Service) : DesiredState :=
  { ds with
    services := Orchestrator.setService ds.services s
    nodup := nodup_setService ds.nodup s }

/-- `state.errors.push(…)`. -/
def DesiredState.pushError (ds : DesiredState) (message : JsString) : DesiredState :=
  { ds with errors := ds.errors ++ [message] }

/-- A file of the services directory. -/
def addServiceFile (faults : ReadFaults) (ds : DesiredState) (file : JsString × JsString) : DesiredState :=
  match loadOneDocument deps faults file with
  | .ok doc => ds.setService doc.toService
  | .error message => ds.pushError message

/-- A file of the plugins directory, of which the run reads the errors alone. -/
def addPluginFile (faults : ReadFaults) (ds : DesiredState) (file : JsString × JsString) : DesiredState :=
  match loadOneDocument deps faults file with
  | .ok _ => ds
  | .error message => ds.pushError message

/-- The framework document of the store. -/
def loadFramework (frameworkRaw : Option Json) : DesiredState :=
  match frameworkRaw.map (validateEnvelope deps) with
  | none => ⟨none, [], [], List.nodup_nil⟩
  | some (.ok doc) => ⟨some doc.toFramework, [], [], List.nodup_nil⟩
  | some (.error message) => ⟨none, [], [message], List.nodup_nil⟩

/-- `loadDesiredState`. -/
def loadDesiredState (desiredDir : JsString) (dir : DesiredDir) (faults : ReadFaults) (frameworkRaw : Option Json) :
    DesiredState :=
  let withServices := (listJsonFiles faults (desiredDir ++ js "/services") dir.services).foldl
    (addServiceFile deps faults) (loadFramework deps frameworkRaw)
  (listJsonFiles faults (desiredDir ++ js "/plugins") dir.plugins).foldl (addPluginFile deps faults) withServices

end Loader

/-! ### What is loaded -/

/-- A document that is there and valid, of a service with this id. -/
def HoldsService (deps : LoaderDeps) (dir : DesiredDir) (id : JsString) : Prop :=
  ∃ e ∈ dir.services, e.isJson = true ∧ ∃ raw doc, parse deps.numerals e.text = some raw ∧
    validateEnvelope deps raw = .ok doc ∧ doc.kind = js "Service" ∧ doc.id = id

section Loaded

variable {deps : LoaderDeps} {desiredDir : JsString} {dir : DesiredDir} {faults : ReadFaults} {frameworkRaw : Option Json}
  {ds : DesiredState} {files : List (JsString × JsString)}

theorem mem_addServiceFile {id : JsString} (h : id ∈ ds.services.map (·.id)) (file : JsString × JsString) :
    id ∈ (addServiceFile deps faults ds file).services.map (·.id) := by
  unfold addServiceFile
  split
  · simp only [DesiredState.setService, ids_setService]
    split
    · exact h
    · exact List.mem_append_left _ h
  · exact h

theorem mem_foldl_services {id : JsString} (h : id ∈ ds.services.map (·.id)) :
    id ∈ (files.foldl (addServiceFile deps faults) ds).services.map (·.id) := by
  induction files generalizing ds with
  | nil => exact h
  | cons file files ih => exact ih (mem_addServiceFile h file)

theorem errors_addServiceFile (h : ds.errors ≠ []) (file : JsString × JsString) :
    (addServiceFile deps faults ds file).errors ≠ [] := by
  unfold addServiceFile
  split
  · exact h
  · simp [DesiredState.pushError]

theorem errors_foldl_services (h : ds.errors ≠ []) : (files.foldl (addServiceFile deps faults) ds).errors ≠ [] := by
  induction files generalizing ds with
  | nil => exact h
  | cons file files ih => exact ih (errors_addServiceFile h file)

/-- Each listed file is a document of the result, or there is an error. -/
theorem foldl_services_covers {file : JsString × JsString} (h : file ∈ files) :
    (∃ doc, loadOneDocument deps faults file = .ok doc ∧
      doc.id ∈ (files.foldl (addServiceFile deps faults) ds).services.map (·.id)) ∨
    (files.foldl (addServiceFile deps faults) ds).errors ≠ [] := by
  induction files generalizing ds with
  | nil => cases h
  | cons first files ih =>
    rw [List.foldl_cons]
    rcases List.mem_cons.mp h with rfl | h
    · cases hload : loadOneDocument deps faults file with
      | ok doc =>
        refine .inl ⟨doc, rfl, mem_foldl_services ?_⟩
        simp only [addServiceFile, hload, DesiredState.setService, ids_setService]
        split
        · assumption
        · exact List.mem_append_right _ (List.mem_singleton_self _)
      | error message =>
        refine .inr (errors_foldl_services ?_)
        simp [addServiceFile, hload, DesiredState.pushError]
    · exact ih h

/-- The plugins directory adds errors alone, one for each file that is no document. -/
theorem foldl_plugins : (files.foldl (addPluginFile deps faults) ds).services = ds.services ∧
    (files.foldl (addPluginFile deps faults) ds).framework = ds.framework ∧
    ((files.foldl (addPluginFile deps faults) ds).errors = [] ↔
      ds.errors = [] ∧ ∀ file ∈ files, ∃ doc, loadOneDocument deps faults file = .ok doc) := by
  induction files generalizing ds with
  | nil => simp
  | cons file files ih =>
    rw [List.foldl_cons]
    obtain ⟨hservices, hframework, herrors⟩ := @ih (addPluginFile deps faults ds file)
    rw [hservices, hframework, herrors]
    cases hload : loadOneDocument deps faults file with
    | ok doc => simp [addPluginFile, hload]
    | error message => simp [addPluginFile, hload, DesiredState.pushError]

/-- **A service whose document is there is loaded**, or LOAD has an error, when the directory was listed. -/
theorem mem_loadDesiredState {id : JsString} (hlisted : faults.listing (desiredDir ++ js "/services") = none)
    (h : HoldsService deps dir id) (herrors : (loadDesiredState deps desiredDir dir faults frameworkRaw).errors = []) :
    id ∈ (loadDesiredState deps desiredDir dir faults frameworkRaw).services.map (·.id) := by
  obtain ⟨e, he, hjson, raw, doc, hparse, hvalid, -, rfl⟩ := h
  let ds := (listJsonFiles faults (desiredDir ++ js "/services") dir.services).foldl (addServiceFile deps faults)
    (loadFramework deps frameworkRaw)
  have hservices : (loadDesiredState deps desiredDir dir faults frameworkRaw).services = ds.services := foldl_plugins.1
  have hnoerror : ds.errors = [] := (foldl_plugins.2.2.mp herrors).1
  have hmem : (desiredDir ++ js "/services" ++ js "/" ++ e.name, e.text) ∈
      listJsonFiles faults (desiredDir ++ js "/services") dir.services := by
    simp only [listJsonFiles, hlisted, List.mem_map, List.mem_filter]
    exact ⟨e, ⟨he, hjson⟩, rfl⟩
  have hcovers : (∃ doc', loadOneDocument deps faults (desiredDir ++ js "/services" ++ js "/" ++ e.name, e.text) = .ok doc' ∧
      doc'.id ∈ ds.services.map (·.id)) ∨ ds.errors ≠ [] := foldl_services_covers hmem
  rw [hservices]
  rcases hcovers with ⟨doc', hload, hdoc⟩ | herror
  · unfold loadOneDocument at hload
    split at hload
    · cases hload
    · rw [hparse] at hload
      dsimp only at hload
      rw [hvalid] at hload
      cases hload
      exact hdoc
  · exact absurd hnoerror herror

end Loaded

/-! ### What a run removes -/

section Removed

variable {env : Env} {ds : DesiredState} {w : World}

/-- The calls since `log` that OBSERVE made remove orphans, and there is a framework document. -/
def ObservedSince (ds : DesiredState) (log : List Attempt) (w : World) : Prop :=
  ∃ new, w.log = log ++ new ∧ ∀ a ∈ new, a.stage = .observe → ds.framework.isSome ∧ a.RemovesOrphan ds

theorem observed_executeStage (hds : w.ctx.desiredState = some ds) :
    Act.Triple (· = w) (executeStage env)
      (fun _ w' => ObservedSince ds w.log w' ∧ w'.ctx.desiredState = some ds) fun _ => ObservedSince ds w.log := by
  refine executeStage_spec ⟨⟨[], by simp, by simp⟩, hds⟩ (fun ds' graph hds' hgraph hfw => ?_) fun w' h => h
  have hsince : ∀ w', IssuedSince (ForGraph env graph w.ctx.gateSnapshot) w.log w.ctx w' → ObservedSince ds w.log w' := by
    rintro w' ⟨⟨new, hnew, hall⟩, -⟩
    exact ⟨new, hnew, fun a ha hstage => absurd ((hall a ha).stage.symm.trans hstage) (by decide)⟩
  refine (issues_executeGraph ds' graph _ w.log w.ctx).conseq (fun w' h => ?_)
    (fun _ w' h => ⟨hsince w' h, h.2 ▸ hds⟩) fun _ => hsince
  rw [h]
  exact .refl _ w

theorem observed_observeStage {log : List Attempt} :
    Act.Triple (fun w => ObservedSince ds log w ∧ w.ctx.desiredState = some ds) (observeStage env)
      (fun _ => ObservedSince ds log) fun _ => ObservedSince ds log := by
  refine Act.Triple.getBind fun w₂ h => ?_
  rw [h.2]
  have hsince : ds.framework.isSome → ∀ w', OrphansSince ds w₂.log w' → ObservedSince ds log w' := by
    rintro hfw w' ⟨new', hnew', horphans⟩
    obtain ⟨new, hnew, hall⟩ := h.1
    refine ⟨new ++ new', by rw [hnew', hnew, List.append_assoc], fun a ha hstage => ?_⟩
    exact (List.mem_append.mp ha).elim (fun ha => hall a ha hstage) fun ha => ⟨hfw, horphans a ha⟩
  dsimp only
  split
  · exact Act.Triple.pure fun w' hw' => hw' ▸ h.1
  · rename_i framework hfw
    have hsome : ds.framework.isSome := by simp [hfw]
    refine Act.Triple.bind (Q := fun _ => ObservedSince ds log) ?_ fun _ => Act.Triple.pure fun _ h => h
    exact (orphans_observeBody ds w₂.ctx).conseq (fun w' hw' => hw' ▸ ⟨[], by simp, by simp⟩)
      (fun _ => hsince hsome) fun _ => hsince hsome

/-- **What OBSERVE removes in a run is an orphan of documents that were loaded without an error.** -/
theorem orphans_of_run {new : List Attempt} (hlog : (runOnce env w).2.log = w.log ++ new) {a : Attempt} (ha : a ∈ new)
    (hstage : a.stage = .observe) :
    ∃ ds, env.load = .ok ds ∧ ds.errors = [] ∧ ds.framework.isSome ∧ a.RemovesOrphan ds := by
  obtain ⟨o, r, w', hrun, ⟨w₁, -, hlog₁, hparts⟩, -⟩ := runOnce_parts env w
  rw [hrun] at hlog
  rcases hparts with ⟨rfl, -⟩ | ⟨hdecided, hlast⟩
  · have hnil : new = [] := List.append_cancel_left (hlog.symm.trans (hlog₁.trans (List.append_nil _).symm))
    rw [hnil] at ha
    cases ha
  · obtain ⟨ds, hload, herrors, hds⟩ := hdecided.read
    have hlast' : Act.Triple (· = w₁) (runStages env [.execute, .observe]) (fun _ => ObservedSince ds w₁.log)
        fun _ _ => False :=
      lastStages_spec (Q := fun w' => ObservedSince ds w₁.log w' ∧ w'.ctx.desiredState = some ds)
        ((observed_executeStage hds).conseq (fun _ h => h)
          (fun r w' h => by cases r with | none => exact h | some e => exact h.1) fun _ _ h => h)
        (observed_observeStage.conseq (fun _ h => h) (fun _ _ h => h) fun _ _ h => h)
    obtain ⟨new', hnew', hall⟩ := hlast'.returned rfl hlast
    have hnew : new = new' := List.append_cancel_left (hlog.symm.trans (hlog₁ ▸ hnew'))
    exact ⟨ds, hload, herrors, hall a (hnew ▸ ha) hstage⟩

end Removed

/-! ### Services that are there -/

/-- The call removes an object of this service. -/
def Attempt.RemovesOf (a : Attempt) (id : JsString) : Prop :=
  match a.call with
  | .removeContainer i => ∃ c ∈ a.before.containers, c.id = i ∧ serviceLabel c.labels = some id
  | .removeNetwork i => ∃ n ∈ a.before.networks, n.id = i ∧ serviceLabel n.labels = some id
  | .removeVolume name => ∃ v ∈ a.before.volumes, v.name = name ∧ serviceLabel v.labels = some id
  | _ => False

/-- In every run on these documents, OBSERVE removes nothing of a service whose document is there. -/
def NeverCollected (deps : LoaderDeps) (desiredDir : JsString) (dir : DesiredDir) (faults : ReadFaults)
    (frameworkRaw : Option Json) : Prop :=
  ∀ env w new a id, env.load = .ok (loadDesiredState deps desiredDir dir faults frameworkRaw) →
    (runOnce env w).2.log = w.log ++ new → a ∈ new → a.stage = .observe → HoldsService deps dir id → ¬ a.RemovesOf id

section NeverCollected

variable {deps : LoaderDeps} {desiredDir : JsString} {dir : DesiredDir} {faults : ReadFaults} {frameworkRaw : Option Json}
  {ds : DesiredState} {env : Env} {id : JsString}

theorem not_orphan_of_mem {labels : Obj JsString} (hlabel : serviceLabel labels = some id)
    (hmem : id ∈ ds.services.map (·.id)) : isOrphan ds labels = false := by
  obtain ⟨s, hs, hid⟩ := List.mem_map.mp hmem
  simp only [isOrphan, hlabel, Bool.not_eq_false', List.any_eq_true, beq_iff_eq]
  exact ⟨s, hs, hid⟩

theorem Attempt.RemovesOrphan.not_removesOf {a : Attempt} (h : a.RemovesOrphan ds)
    (hmem : id ∈ ds.services.map (·.id)) : ¬ a.RemovesOf id := by
  intro hof
  unfold Attempt.RemovesOrphan at h
  unfold Attempt.RemovesOf at hof
  split at hof
  · obtain ⟨c, hc, hid, hlabel⟩ := hof
    rename_i hcall
    rw [hcall] at h
    exact absurd (h c hc hid) (by simp [not_orphan_of_mem hlabel hmem])
  · obtain ⟨n, hn, hid, hlabel⟩ := hof
    rename_i hcall
    rw [hcall] at h
    exact absurd (h n hn hid) (by simp [not_orphan_of_mem hlabel hmem])
  · obtain ⟨v, hv, hname, hlabel⟩ := hof
    rename_i hcall
    rw [hcall] at h
    exact absurd (h v hv hname).1 (by simp [not_orphan_of_mem hlabel hmem])
  · exact hof

/-- The framework document is there and valid. -/
def FrameworkValid (deps : LoaderDeps) (frameworkRaw : Option Json) : Prop :=
  ∃ raw doc, frameworkRaw = some raw ∧ validateEnvelope deps raw = .ok doc

/-- Each listed plugin configuration is a document. -/
def PluginConfigsValid (deps : LoaderDeps) (desiredDir : JsString) (dir : DesiredDir) (faults : ReadFaults) : Prop :=
  ∀ file ∈ listJsonFiles faults (desiredDir ++ js "/plugins") dir.plugins, ∃ doc, loadOneDocument deps faults file = .ok doc

theorem frameworkValid_iff :
    (loadFramework deps frameworkRaw).framework.isSome = true ↔ FrameworkValid deps frameworkRaw := by
  cases frameworkRaw with
  | none => simp [loadFramework, FrameworkValid]
  | some raw =>
    cases hvalid : validateEnvelope deps raw with
    | ok doc => simp [loadFramework, FrameworkValid, hvalid]
    | error message => simp [loadFramework, FrameworkValid, hvalid]

theorem framework_foldl_services {files : List (JsString × JsString)} :
    (files.foldl (addServiceFile deps faults) ds).framework = ds.framework := by
  induction files generalizing ds with
  | nil => rfl
  | cons file files ih =>
    rw [List.foldl_cons, ih]
    unfold addServiceFile
    split <;> rfl

/-- The framework document of the run, and that of the store. -/
theorem framework_loadDesiredState :
    (loadDesiredState deps desiredDir dir faults frameworkRaw).framework = (loadFramework deps frameworkRaw).framework := by
  rw [loadDesiredState, foldl_plugins.2.1, framework_foldl_services]

/-- Four ways in which OBSERVE cannot go wrong. -/
theorem neverCollected_of (h : faults.listing (desiredDir ++ js "/services") = none ∨
      (∀ id, HoldsService deps dir id → id = []) ∨ ¬ FrameworkValid deps frameworkRaw ∨
      ¬ PluginConfigsValid deps desiredDir dir faults) :
    NeverCollected deps desiredDir dir faults frameworkRaw := by
  intro env w new a id hload hlog ha hstage hholds
  obtain ⟨ds, hds, herrors, hframework, horphan⟩ := orphans_of_run hlog ha hstage
  rw [hload] at hds
  cases hds
  rcases h with hlisted | hnone | hframework' | hplugins
  · exact horphan.not_removesOf (mem_loadDesiredState hlisted hholds herrors)
  · intro hof
    rw [hnone id hholds] at hof
    have hlabel : ∀ labels, serviceLabel labels ≠ some [] := by
      intro labels h
      exact absurd (Option.filter_eq_some_iff.mp h).2 (by simp)
    unfold Attempt.RemovesOf at hof
    split at hof
    · obtain ⟨c, -, -, h⟩ := hof
      exact hlabel _ h
    · obtain ⟨n, -, -, h⟩ := hof
      exact hlabel _ h
    · obtain ⟨v, -, -, h⟩ := hof
      exact hlabel _ h
    · exact hof
  · rw [framework_loadDesiredState, frameworkValid_iff] at hframework
    exact absurd hframework hframework'
  · exact absurd (foldl_plugins.2.2.mp herrors).2 hplugins

/-! ### A directory that cannot be listed -/

/-- No plugin stands in the way of a run. -/
def openEnv (ds : DesiredState) : Env :=
  { Env.idle with
    load := .ok ds
    networkPlan := fun _ _ => .ok none
    proxyRender := fun _ _ => .ok none }

/-- A host with the container of a service. -/
def oneContainer (id : JsString) : World :=
  { World.empty with
    docker := { Docker.empty with
      containers := [⟨0, js "wanfw_" ++ id, managedLabels id false, none, [], js "running", []⟩]
      nextId := 1
      ids_nodup := List.nodup_singleton _
      ids_lt := by simp
      networks_lt := Docker.no_networks_lt } }

/-- The graph of a run without services and without answers. -/
structure BareGraph (g : PlanGraph) : Prop where
  servicePlans : g.servicePlans = []
  networkPlan : g.networkPlan = none
  proxyRender : g.proxyRender = none
  certNames : g.certNames = []

theorem planOf_openEnv (hservices : ds.services = []) (framework : Framework) :
    ∃ g, planOf (openEnv ds) ds framework = .ok (.ok g) ∧ BareGraph g := by
  have hnetwork : planNetwork (openEnv ds) framework = .ok none := by
    unfold planNetwork
    split <;> rfl
  have hproxy : ∃ g, planProxy (openEnv ds) framework ((PlanGraph.empty none).finish (openEnv ds)) = .ok g ∧ BareGraph g := by
    unfold planProxy
    split
    · exact ⟨_, rfl, rfl, rfl, rfl, rfl⟩
    · exact ⟨_, rfl, rfl, rfl, rfl, rfl⟩
  obtain ⟨g, hg, hbare⟩ := hproxy
  refine ⟨g, ?_, hbare⟩
  unfold planOf
  rw [hnetwork, hservices, ← hg]
  rfl

/-- The stage succeeds, and leaves `Q`. -/
def Passes (P : World → Prop) (m : M StageResult) (Q : World → Prop) : Prop :=
  Act.Triple P m (fun r w => r = none ∧ Q w) fun _ _ => False

theorem Passes.cons {P Q : World → Prop} {stage : Stage} {rest : List Stage} {R : StageResult → World → Prop}
    (h : Passes P (runStage env stage) Q) (hrest : Act.Triple Q (runStages env rest) R fun _ _ => False) :
    Act.Triple P (runStages env (stage :: rest)) R fun _ _ => False := by
  refine Act.Triple.bind (Act.Triple.tryCatch (F := fun _ _ => False) h fun e => Act.Triple.pure fun _ h => h.elim) fun r => ?_
  cases r with
  | some e => exact Act.Triple.pure fun w h => absurd h.1 (by simp)
  | none => exact hrest.conseq (fun w h => h.2) (fun _ _ h => h) fun _ _ h => h

theorem Passes.get {P Q : World → Prop} {f : World → M StageResult} (h : ∀ w, P w → Passes (· = w) (f w) Q) :
    Passes P (Act.get >>= f) Q := Act.Triple.getBind h

/-- The documents are there. -/
def HasDocuments (ds : DesiredState) (id : JsString) (w : World) : Prop :=
  w.docker = (oneContainer id).docker ∧ w.ctx.desiredState = some ds

/-- And the graph is bare. -/
def HasGraph (ds : DesiredState) (id : JsString) (w : World) : Prop :=
  HasDocuments ds id w ∧ ∃ g, w.ctx.planGraph = some g ∧ BareGraph g

theorem passes_load (herrors : ds.errors = []) :
    Passes (fun w => w.docker = (oneContainer id).docker) (loadStage (openEnv ds)) (HasDocuments ds id) := by
  unfold Passes loadStage
  refine Act.Triple.tryCatch (F := fun _ _ => False) ?_ fun e => Act.Triple.pure fun _ h => h.elim
  rw [show (openEnv ds).load = .ok ds from rfl, Act.ofExcept_ok_bind]
  refine Act.Triple.bind (Q := fun _ => HasDocuments ds id) (Act.Triple.modify fun w h => ⟨h, rfl⟩) fun _ => ?_
  refine Act.Triple.bind (Q := fun _ => HasDocuments ds id) (Act.Triple.modify fun w h => h) fun _ => ?_
  rw [herrors]
  dsimp only
  split
  · split
    · exact Act.Triple.bind (Act.Triple.modify fun w h => h) fun _ => Act.Triple.pure fun w h => ⟨rfl, h⟩
    · exact Act.Triple.pure fun w h => ⟨rfl, h⟩
  · exact Act.Triple.pure fun w h => ⟨rfl, h⟩

theorem passes_resolve : Passes (HasDocuments ds id) (resolveStage (openEnv ds)) (HasDocuments ds id) := by
  refine Passes.get fun w hw => ?_
  split
  · exact Act.Triple.pure fun w' h => ⟨rfl, h ▸ hw⟩
  · rw [show (openEnv ds).resolve = .ok none from rfl, Act.ofExcept_ok_bind]
    exact Act.Triple.pure fun w' h => ⟨rfl, h ▸ hw⟩

theorem passes_plan (hservices : ds.services = []) {framework : Framework} (hf : ds.framework = some framework) :
    Passes (HasDocuments ds id) (planStage (openEnv ds)) (HasGraph ds id) := by
  refine Passes.get fun w hw => ?_
  obtain ⟨g, hplan, hbare⟩ := planOf_openEnv hservices framework
  simp only [hw.2, hf, hplan, Act.ofExcept_ok_bind]
  refine Act.Triple.bind (Q := fun _ => HasGraph ds id) (Act.Triple.modify ?_) fun _ => Act.Triple.pure fun w' h => ⟨rfl, h⟩
  rintro _ rfl
  exact ⟨hw, g, rfl, hbare⟩

theorem passes_renewal : Passes (HasGraph ds id) (renewalStage (openEnv ds)) (HasGraph ds id) := by
  refine Passes.get fun w hw => ?_
  obtain ⟨g, hg, hbare⟩ := hw.2
  simp only [hg, Option.map_some, Option.getD_some, hbare.certNames]
  exact Act.Triple.pure fun w' h => ⟨rfl, h ▸ hw⟩

theorem passes_validate : Passes (HasGraph ds id) (validateStage (openEnv ds)) (HasGraph ds id) := by
  refine Passes.get fun w hw => ?_
  obtain ⟨g, hg, hbare⟩ := hw.2
  simp only [hw.1.2, hg, hbare.servicePlans]
  rw [show validatePlans (openEnv ds) ds [] [] = .ok (.ok []) from rfl, Act.ofExcept_ok_bind]
  refine Act.Triple.bind (Q := fun _ => HasGraph ds id) (Act.Triple.modify ?_) fun _ => Act.Triple.pure fun w' h => ⟨rfl, h⟩
  rintro _ rfl
  exact ⟨hw.1, g, hg, hbare⟩

theorem passes_gate : Passes (HasGraph ds id) (gateStage (openEnv ds)) (HasGraph ds id) := by
  refine Passes.get fun w hw => ?_
  split
  · refine Act.Triple.bind (Q := fun _ => HasGraph ds id) (Act.Triple.modify ?_) fun _ => Act.Triple.pure fun w' h => ⟨rfl, h⟩
    rintro _ rfl
    exact hw
  · exact Act.Triple.pure fun w' h => ⟨rfl, h ▸ hw⟩

theorem passes_execute : Passes (HasGraph ds id) (executeStage (openEnv ds)) (HasDocuments ds id) := by
  refine Act.Triple.ofEach fun w hw => ?_
  obtain ⟨g, hg, hbare⟩ := hw.2
  refine executeStage_spec ⟨rfl, hw.1⟩ (fun ds' graph hds' hgraph hfw => ?_) fun w' h => h
  rw [hg] at hgraph
  cases hgraph
  have hrun : executeGraph (openEnv ds) ds' g w.ctx.gateSnapshot w = (.ok none, w) := by
    simp only [executeGraph, hbare.servicePlans, executeNetworkPlan, hbare.networkPlan, executeProxyRender,
      hbare.proxyRender]
    rfl
  rintro _ rfl
  rw [hrun]
  exact ⟨rfl, hw.1⟩

/-- OBSERVE has removed the container of the service. -/
def Collects (id : JsString) (w : World) : Prop := ∃ a ∈ w.log, a.stage = .observe ∧ a.RemovesOf id

theorem Collects.keeps {α : Type} {P : Attempt → Prop} {m : M α} (hm : Issues P m) :
    Act.Triple (Collects id) m (fun _ => Collects id) fun _ => Collects id := by
  rintro w ⟨a, ha, hcollects⟩
  exact (hm.keeps a).conseq (fun _ h => h) (fun _ _ h => ⟨a, h, hcollects⟩) (fun _ _ h => ⟨a, h, hcollects⟩) w ha

theorem collects_containers (hid : id ≠ []) (hservices : ds.services = []) (planId : JsString) :
    Act.Triple (fun w => w.docker = (oneContainer id).docker) (collectContainers (openEnv ds) ds planId)
      (fun _ => Collects id) fun _ => Collects id := by
  obtain ⟨c, hc⟩ : ∃ c, (oneContainer id).docker.containers = [c] ∧ c.labels = managedLabels id false := ⟨_, rfl, rfl⟩
  have hlabel : serviceLabel c.labels = some id := by
    simp [hc.2, serviceLabel, managedLabels, Obj.get_cons, truthy, hid, show js "wanfw.managed" ≠ js "wanfw.service" by decide]
  have hmanaged : isManaged c.labels = true := by simp [hc.2, isManaged, managedLabels, Obj.get_cons]
  have horphan : isOrphan ds c.labels = true := by simp [isOrphan, hlabel, hservices]
  refine Act.Triple.bind (Q := fun cs w => w.docker = (oneContainer id).docker ∧ cs = [c]) ?_ fun cs => ?_
  · intro w hw
    refine ⟨hw, ?_⟩
    simp only [hw, hc.1]
    simp [hmanaged]
  · refine Act.Triple.ofEach fun w ⟨hdocker, hcs⟩ => ?_
    rw [hcs, show ([c].filter fun c => isOrphan ds c.labels) = [c] by simp [horphan]]
    refine Act.Triple.bind (Q := fun _ => Collects id) (Act.Triple.bind (Q := fun _ => Collects id) ?_ fun _ =>
      Act.Triple.modify fun w h => h) fun _ => Act.Triple.pure fun w h => h
    intro w' hw'
    let a : Attempt := ⟨.observe, w'.docker, .removeContainer c.id⟩
    have hof : a.RemovesOf id := ⟨c, by simp [a, hw', hdocker, hc.1], rfl, hlabel⟩
    have hcollects : ∀ w'' : World, w''.log = w'.log ++ [a] → Collects id w'' :=
      fun w'' hlog => ⟨a, by simp [hlog], rfl, hof⟩
    unfold issue
    simp only [show (openEnv ds).fault = fun _ => none from rfl]
    cases w'.docker.removeContainer c.id with
    | ok r => exact hcollects _ rfl
    | error e => exact hcollects _ rfl

theorem collects_observe (hid : id ≠ []) (hservices : ds.services = []) (hf : ds.framework.isSome) :
    Act.Triple (HasDocuments ds id) (observeStage (openEnv ds)) (fun _ => Collects id) fun _ => Collects id := by
  obtain ⟨framework, hf⟩ := Option.isSome_iff_exists.mp hf
  refine Act.Triple.getBind fun w hw => ?_
  simp only [hw.2, hf]
  refine Act.Triple.bind (Q := fun _ => Collects id) ?_ fun _ => Act.Triple.pure fun _ h => h
  refine Act.Triple.bind (Q := fun _ => Collects id)
    ((collects_containers hid hservices _).conseq (fun w' h => h ▸ hw.1) (fun _ _ h => h) fun _ _ h => h) fun _ =>
    Collects.keeps (P := IsCollection) ?_
  exact issues_collectNetworks.bind fun _ => issues_collectVolumes.bind fun _ => (Issues.query _).bind fun remaining =>
    (Issues.forEach fun service _ => issues_writeStatus _ _).bind fun _ => Issues.modify (fun _ => rfl) fun _ => rfl

/-- With no service loaded, OBSERVE removes the container of every service. -/
theorem collects_run (hid : id ≠ []) (hservices : ds.services = []) (herrors : ds.errors = []) (hf : ds.framework.isSome) :
    Collects id (runOnce (openEnv ds) (oneContainer id)).2 := by
  obtain ⟨framework, hframework⟩ := Option.isSome_iff_exists.mp hf
  have hstages : Act.Triple (fun w => w.docker = (oneContainer id).docker) (runStages (openEnv ds) stages)
      (fun _ => Collects id) fun _ _ => False :=
    (passes_load herrors).cons <| passes_resolve.cons <| (passes_plan hservices hframework).cons <|
      passes_renewal.cons <| passes_validate.cons <| passes_gate.cons <|
      lastStages_spec (passes_execute.conseq (fun _ h => h)
        (fun r w h => by
          obtain ⟨rfl, h⟩ := h
          exact h) fun _ _ h => h.elim)
        (collects_observe hid hservices hf)
  have hrun : Act.Triple (fun w => w.docker = (oneContainer id).docker) (runOnce (openEnv ds)) (fun _ => Collects id)
      fun _ => Collects id := by
    refine Act.Triple.bind (Q := fun _ w => w.docker = (oneContainer id).docker) (Act.Triple.modify fun w h => h) fun _ => ?_
    refine Act.Triple.bind (hstages.conseq (fun _ h => h) (fun _ _ h => h) fun _ _ h => h.elim) fun lastError => ?_
    refine Act.Triple.getBind fun w' hw' => ?_
    split <;> exact Act.Triple.pure fun w'' h => h ▸ hw'
  exact hrun.final rfl (fun _ _ h => h) fun _ _ h => h

/-- A directory that cannot be listed, in a run that nothing else stops. -/
theorem not_neverCollected (hlisted : faults.listing (desiredDir ++ js "/services") ≠ none)
    (hholds : HoldsService deps dir id) (hid : id ≠ []) (hframework : FrameworkValid deps frameworkRaw)
    (hplugins : PluginConfigsValid deps desiredDir dir faults) :
    ¬ NeverCollected deps desiredDir dir faults frameworkRaw := by
  intro h
  obtain ⟨message, hlisted⟩ := Option.ne_none_iff_exists'.mp hlisted
  let ds := loadDesiredState deps desiredDir dir faults frameworkRaw
  have hfiles : listJsonFiles faults (desiredDir ++ js "/services") dir.services = [] := by
    simp [listJsonFiles, hlisted]
  have hbase : (loadFramework deps frameworkRaw).services = [] ∧ (loadFramework deps frameworkRaw).errors = [] := by
    obtain ⟨raw, doc, rfl, hvalid⟩ := hframework
    simp [loadFramework, hvalid]
  have hservices : ds.services = [] := by
    simp only [ds, loadDesiredState, hfiles, List.foldl_nil, foldl_plugins.1, hbase.1]
  have herrors : ds.errors = [] := by
    simp only [ds, loadDesiredState, hfiles, List.foldl_nil]
    exact foldl_plugins.2.2.mpr ⟨hbase.2, hplugins⟩
  have hfw : ds.framework.isSome := by
    rw [framework_loadDesiredState]
    exact frameworkValid_iff.mpr hframework
  obtain ⟨a, ha, hstage, hof⟩ := collects_run hid hservices herrors hfw
  exact h (openEnv ds) (oneContainer id) _ a id rfl (List.nil_append _).symm ha hstage hholds hof

/-- **When OBSERVE spares the services whose documents are there.** For every content of the directory and
every outcome of the reads: exactly when the directory was listed, or there is nothing to spare, or the
run has no valid framework document, or a plugin configuration stops it in LOAD. -/
theorem neverCollected_iff : NeverCollected deps desiredDir dir faults frameworkRaw ↔
    faults.listing (desiredDir ++ js "/services") = none ∨ (∀ id, HoldsService deps dir id → id = []) ∨
      ¬ FrameworkValid deps frameworkRaw ∨ ¬ PluginConfigsValid deps desiredDir dir faults := by
  refine ⟨fun h => ?_, neverCollected_of⟩
  by_contra hnot
  simp only [not_or, not_forall, not_not] at hnot
  obtain ⟨hlisted, ⟨id, hholds, hid⟩, hframework, hplugins⟩ := hnot
  exact not_neverCollected hlisted hholds hid hframework hplugins h

end NeverCollected

/-! ### A transient error -/

/-- Schemas that accept every document. -/
def anyDocument : LoaderDeps where
  envelope _ := none
  framework _ := none
  service _ := none
  pluginConfig _ := none
  numerals := .exact
  syntaxError _ := []

/-- A document. -/
def document (kind id : String) : Json :=
  .obj [(js "schemaVersion", .num 1), (js "kind", .str (js kind)), (js "metadata", .obj [(js "id", .str (js id))]),
    (js "spec", .obj [])]

/-- The service `blog` is there. -/
def blogDir : DesiredDir where
  services := [⟨js "blog.json", true, stringify (document "Service" "blog")⟩]
  plugins := []

/-- The services directory cannot be listed. -/
def unlisted : ReadFaults where
  listing dir := if dir = js "/desired/services" then some (js "EMFILE: too many open files") else none
  file _ := none

theorem validateEnvelope_document (kind id : String) : validateEnvelope anyDocument (document kind id) =
    .ok ⟨js kind, js id, .obj [], none⟩ := by
  have hkind : textProp (document kind id) "kind" = some (js kind) := rfl
  have hid : textProp (((document kind id).prop (js "metadata")).getD .null) "id" = some (js id) := rfl
  have hversion : numProp (document kind id) "schemaVersion" = some 1 := rfl
  have hspec : (document kind id).prop (js "spec") = some (.obj []) := rfl
  have hknown : ¬ 1 < (1 : Decimal).toRat := by decide +kernel
  have haccepted : ∀ k spec, kindValidator anyDocument k spec = none := by
    intro k spec
    unfold kindValidator
    split_ifs <;> rfl
  simp only [validateEnvelope, hkind, hid, hversion, hspec, haccepted, migrateDocumentSpec, Option.getD_some,
    if_neg hknown]
  rfl

theorem proper_document (kind id : String) : (document kind id).Proper := by
  refine .plain ?_ ?_ ?_
  · change List.Nodup [js "schemaVersion", js "kind", js "metadata", js "spec"]
    decide
  · change ∀ k ∈ [js "schemaVersion", js "kind", js "metadata", js "spec"], _
    decide
  · simp only [List.forall_mem_cons]
    refine ⟨.num _, .str _, .plain (List.nodup_singleton _) ?_ ?_, .plain List.nodup_nil ?_ ?_, by simp⟩
    · change ∀ k ∈ [js "id"], _
      decide
    · simpa using Json.Proper.str _
    · simp [Obj.keys]
    · simp

theorem holdsService_blog : HoldsService anyDocument blogDir (js "blog") :=
  ⟨_, List.mem_singleton_self _, by decide, _, _, parse_stringify (proper_document "Service" "blog"),
    validateEnvelope_document "Service" "blog", rfl, rfl⟩

/-- The service is collected although its document is there. -/
theorem not_neverCollected_unlisted :
    ¬ NeverCollected anyDocument (js "/desired") blogDir unlisted (some (document "Framework" "framework")) := by
  refine not_neverCollected ?_ holdsService_blog (by decide)
    ⟨_, _, rfl, validateEnvelope_document "Framework" "framework"⟩ ?_
  · decide
  · intro file hfile
    cases hfile

end Wanfw.Orchestrator
