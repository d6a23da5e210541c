import Wanfw.Js.JsonDocument
import Wanfw.Orchestrator.ComposedSchema
import Wanfw.Orchestrator.Loader
import Wanfw.Store.FileTree

/-!
# The service documents

`tier1/lib/desired-write.ts` and `tier1/app/(shell)/services/actions.ts`: the services pages save
a service by writing its document to a temporary file and renaming it, and delete one by removing
its file; the loader of the orchestrator reads the same directory.

`saved_documents_loaded`: whatever requests there were, in whatever order their effects came and
however many writes stopped half way, LOAD gets the services as they were last saved, the edit
page shows them so, and no file makes LOAD fail.
-/

namespace Wanfw.Tier1

open Wanfw.Js Wanfw.Store Wanfw.Orchestrator Wanfw.Orchestrator.Compose

/-! ### The files -/

/-- `wanfw_desired`. -/
abbrev Volume := FileTree JsString JsString

/-- The id of a service, as the pages list them: it matches `^[a-z0-9][a-z0-9-]*$`. `deleteServiceAction` does not check
the id that it is called with, and a request that no page makes can have another one. -/
abbrev ServiceId := { id : JsString // idPattern.test id = true }

/-- `randomBytes(6).toString("hex")`. -/
structure TempHex where
  hex : JsString
  digits : ∀ u ∈ hex, isDigit u = true ∨ 97 ≤ u.toNat ∧ u.toNat ≤ 102
  length : hex.length = 12

/-- `join(DESIRED_DIR, "services")`. -/
def servicesDir : List JsString := [js "services"]

/-- The name of a document's file. -/
def docName (id : JsString) : JsString := id ++ js ".json"

/-- `serviceDocPath`. -/
def serviceDocPath (id : JsString) : List JsString := servicesDir ++ [docName id]

/-- The name of a temporary file. -/
def tmpName (id : JsString) (hex : TempHex) : JsString := docName id ++ js ".tmp-" ++ hex.hex

/-- `tmpPath`. -/
def tmpPath (id : JsString) (hex : TempHex) : List JsString := servicesDir ++ [tmpName id hex]

/-- `atomicWriteFile` until before the rename. The file may have a part of the text. -/
def writeTemp (t : Volume) (id : JsString) (hex : TempHex) (text : JsString) : Option Volume := do
  (← t.mkdirp servicesDir).writeFile (tmpPath id hex) text

/-- `atomicWriteFile`. -/
def atomicWriteFile (t : Volume) (id : JsString) (hex : TempHex) (text : JsString) : Option Volume := do
  (← writeTemp t id hex text).rename (tmpPath id hex) (serviceDocPath id)

/-- `rm(path, { force: true })`, of a file. -/
def rmFile (t : Volume) (p : List JsString) : Volume := if t.isFile p then t.remove p else t

/-! ### The documents -/

/-- `metadata`. -/
def serviceMetadata (id : JsString) (displayName : Option JsString) : Obj Json :=
  match truthy displayName with
  | some name => [(js "id", .str id), (js "displayName", .str name)]
  | none => [(js "id", .str id)]

/-- `ServiceEnvelope`. -/
def serviceEnvelope (id : JsString) (spec : Obj Json) (displayName : Option JsString) : Json := .obj [
  (js "kind", .str (js "Service")),
  (js "schemaVersion", .num 1),
  (js "metadata", .obj (serviceMetadata id displayName)),
  (js "spec", .obj spec)]

/-- `JSON.stringify(envelope, null, 2)`. -/
def serviceText (id : JsString) (spec : Obj Json) (displayName : Option JsString) : JsString :=
  stringifyIndent (js "  ") [] (serviceEnvelope id spec displayName)

/-- `writeServiceDoc`; when a file is in the way, nothing is written. -/
def writeServiceDoc (t : Volume) (id : JsString) (hex : TempHex) (spec : Obj Json)
    (displayName : Option JsString) : Volume :=
  (atomicWriteFile t id hex (serviceText id spec displayName)).getD t

/-- `readServiceDoc`. -/
def readServiceDoc (N : Numerals) (t : Volume) (id : JsString) : Option Json :=
  (t.readFile (serviceDocPath id)).bind (parse N)

/-- `listServiceIds`: the names that end in `.json`, without it. -/
def listServiceIds (t : Volume) : List JsString :=
  match t.readdir servicesDir with
  | none => []
  | some files =>
    (files.filter fun f => endsWith f (js ".json")).map fun f => f.take (f.length - (js ".json").length)

/-- `deleteServiceDoc`. -/
def deleteServiceDoc (t : Volume) (id : JsString) : Volume := rmFile t (serviceDocPath id)

/-! ### The actions -/

/-- The errors of a compiled schema: `instancePath` and `message`. -/
abbrev Ajv := Json → Json → Option (List (JsString × JsString))

/-- The path of an error in the form: the slashes are points, without the first. -/
def formPath (instancePath : JsString) : JsString :=
  let path :=
    (if startsWith instancePath (js "/") then instancePath.drop 1 else instancePath).map fun u => if u = 47 then 46 else u
  if path = [] then js "(root)" else path

/-- `validateDocument`: the errors by path, if there are any. -/
def validateDocument (ajv : Ajv) (schema data : Json) : Option (Obj (List JsString)) :=
  (ajv schema data).map fun errors => errors.foldl (fun byPath e =>
    Obj.assign byPath (formPath e.1) ((Obj.get byPath (formPath e.1)).getD [] ++ [e.2])) []

/-- Why a service is not saved. -/
inductive SaveError where
  | form (message : JsString)
  | fields (errorsByPath : Obj (List JsString))

/-- What a save writes. -/
structure ServiceDoc where
  spec : Obj Json
  displayName : Option JsString

/-- The draft: the form does not ask for the plugin, it is the bound one. -/
def serviceDraft (plugin : JsString) (spec : Obj Json) : Obj Json :=
  let deploy := Obj.setOwn (Obj.spread [] (spreadMembers ((Obj.get spec (js "deploy")).getD .null)))
    (js "plugin") (.str plugin)
  Obj.setOwn (Obj.spread [] spec) (js "deploy") (.obj deploy)

/-- `saveServiceAction`, up to the write. -/
def saveServiceAction (ajv : Ajv) (composed : Option ComposedSchema) (id displayName : JsString)
    (spec : Obj Json) : Except SaveError ServiceDoc :=
  if idPattern.test id = false then
    .error (.form (js "service id must be lowercase alphanumeric with hyphens"))
  else
    match composed with
    | none => .error (.form (js "could not reach the orchestrator to fetch the composed schema"))
    | some composed =>
      match truthy composed.boundDeployPluginId with
      | none => .error (.form (js "no deploy plugin is currently trusted/bound -- trust one first"))
      | some plugin =>
        match validateDocument ajv composed.service (.obj (serviceDraft plugin spec)) with
        | some errorsByPath => .error (.fields errorsByPath)
        | none => .ok ⟨serviceDraft plugin spec, truthy (some displayName)⟩

/-- What `deleteServiceAction` writes when the volumes go too: the document that it read, with the
choice. -/
def removingVolumes (doc : Json) : ServiceDoc where
  spec :=
    let spec := (doc.prop (js "spec")).getD .null
    let expose := (spec.prop (js "expose")).getD (.obj [])
    Obj.setOwn (Obj.spread [] (spreadMembers spec)) (js "expose")
      (.obj (Obj.setOwn (Obj.spread [] (spreadMembers expose)) (js "removeVolumesOnDelete") (.bool true)))
  displayName := (doc.prop (js "metadata")).bind fun metadata => textProp metadata "displayName"

/-! ### The requests -/

/-- The form of a service. The members of its spec are values of the language. -/
structure Form where
  id : JsString
  displayName : JsString
  spec : Obj Json
  proper : (Json.obj spec).Proper

/-- What the composed schema was made of when it was published. -/
structure Published where
  framework : Json
  bundles : Bundles
  trusted : List JsString

/-- The effects of requests on the volume. A request to delete may stop after any of its own. -/
inductive Effect where
  /-- A form is submitted, and its document written; the orchestrator answered with its schema, or
  not at all. -/
  | save (form : Form) (published : Option Published) (hex : TempHex)
  /-- A write stops before the rename. -/
  | torn (id : ServiceId) (hex : TempHex) (part : JsString)
  /-- `deleteServiceAction` reads a document, to remove the volumes with it. -/
  | confirm (id : ServiceId)
  /-- It writes the document that was read `k`-th. -/
  | relabel (k : ℕ) (hex : TempHex)
  /-- `deleteServiceDoc`. -/
  | delete (id : ServiceId)

/-- The volume, and the documents that are read and not yet written again. -/
structure Services where
  tree : Volume
  deleting : List (ServiceId × Json)

/-- No document. -/
def Services.empty : Services := ⟨.empty, []⟩

section Services

variable (N : Numerals) (ajv : Ajv)

/-- The composed schema. -/
def Published.composed (p : Published) : ComposedSchema :=
  buildComposedSchema p.framework p.bundles p.trusted

/-- One effect. -/
def Services.step (s : Services) : Effect → Services
  | .save form published hex =>
    match saveServiceAction ajv (published.map Published.composed) form.id form.displayName form.spec with
    | .error _ => s
    | .ok doc => { s with tree := writeServiceDoc s.tree form.id hex doc.spec doc.displayName }
  | .torn id hex part => { s with tree := (writeTemp s.tree id hex part).getD s.tree }
  | .confirm id =>
    match readServiceDoc N s.tree id with
    | none => s
    | some doc => { s with deleting := s.deleting ++ [(id, doc)] }
  | .relabel k hex =>
    match s.deleting[k]? with
    | none => s
    | some (id, doc) =>
      ⟨writeServiceDoc s.tree id hex (removingVolumes doc).spec (removingVolumes doc).displayName,
        s.deleting.eraseIdx k⟩
  | .delete id => { s with tree := deleteServiceDoc s.tree id }

/-- Effects, one after the other. -/
def Services.run (s : Services) (effects : List Effect) : Services :=
  effects.foldl (Services.step N ajv) s

end Services

/-! ### What is saved -/

/-- The services as the operator has saved them, and those that were read to be deleted. -/
structure Saved where
  docs : JsString → Option ServiceDoc
  deleting : List (ServiceId × ServiceDoc)

/-- Nothing. -/
def Saved.empty : Saved := ⟨fun _ => none, []⟩

/-- One effect. A write that stops has none. -/
def Saved.step (ajv : Ajv) (a : Saved) : Effect → Saved
  | .save form published _ =>
    match saveServiceAction ajv (published.map Published.composed) form.id form.displayName form.spec with
    | .error _ => a
    | .ok doc => { a with docs := Function.update a.docs form.id (some doc) }
  | .torn _ _ _ => a
  | .confirm id =>
    match a.docs id with
    | none => a
    | some doc => { a with deleting := a.deleting ++ [(id, doc)] }
  | .relabel k _ =>
    match a.deleting[k]? with
    | none => a
    | some (id, doc) =>
      ⟨Function.update a.docs id (some (removingVolumes (serviceEnvelope id doc.spec doc.displayName))),
        a.deleting.eraseIdx k⟩
  | .delete id => { a with docs := Function.update a.docs id none }

/-- Effects, one after the other. -/
def Saved.run (ajv : Ajv) (a : Saved) (effects : List Effect) : Saved :=
  effects.foldl (Saved.step ajv) a

/-! ### Documents that the loader accepts -/

/-- Ajv implements JSON Schema, for the schemas at hand. -/
structure AjvFits (rest : Assertions) (ajv : Ajv) (deps : LoaderDeps) : Prop where
  composed : ∀ schema v, ajv schema v = none → Accepts (coreKeywords rest) schema v
  envelope : ∀ v, Accepts (coreKeywords rest) envelopeSchema v → deps.envelope v = none
  service : ∀ v, Accepts (coreKeywords rest) serviceSchema v → deps.service v = none

/-- A document that the loader takes for the service with this id. -/
structure Admissible (rest : Assertions) (id : JsString) (doc : ServiceDoc) : Prop where
  id : idPattern.test id = true
  proper : (Json.obj doc.spec).Proper
  accepted : Accepts (coreKeywords rest) serviceSchema (.obj doc.spec)

section Accepted

variable {rest : Assertions} {ajv : Ajv} {deps : LoaderDeps} {id : JsString} {spec : Obj Json}
  {displayName : Option JsString} {doc : ServiceDoc}

theorem accepts_metadata (hid : idPattern.test id = true) (displayName : Option JsString) :
    Accepts (coreKeywords rest) (.obj [
      (js "type", .str (js "object")),
      (js "properties", .obj [
        (js "id", .obj [(js "type", .str (js "string")), (js "minLength", .num 1), (js "pattern", idPatternText)]),
        (js "displayName", typeSchema (js "string"))]),
      (js "required", .arr [.str (js "id")]),
      (js "additionalProperties", .bool false)]) (.obj (serviceMetadata id displayName)) := by
  have hne : id ≠ [] := by
    rintro rfl
    revert hid
    decide +kernel
  have hnonempty : Accepts (coreKeywords rest) nonEmptyString (.str id) :=
    accepts_nonEmptyString.mpr ⟨id, rfl, hne⟩
  have hidSchema : Accepts (coreKeywords rest)
      (.obj [(js "type", .str (js "string")), (js "minLength", .num 1), (js "pattern", idPatternText)]) (.str id) := by
    refine accepts_obj_iff.mpr ⟨assertions_of_mem fun e he _ => ?_, nofun⟩
    simp only [List.mem_cons, List.not_mem_nil, or_false] at he
    rcases he with rfl | rfl | rfl
    · exact keyword_type.mpr rfl
    · exact (accepts_obj_iff.mp hnonempty).1 (js "minLength") (.num 1) rfl (by decide)
    · refine keyword_idPattern fun t ht => ?_
      cases ht
      exact hid
  refine accepts_object_iff.mpr ⟨assertions_of_mem fun e he hnot => ?_, fun k hk => ?_, fun k x hx => ?_⟩
  · simp only [List.mem_cons, List.not_mem_nil, or_false] at he
    rcases he with rfl | rfl | rfl | rfl
    · exact keyword_type.mpr rfl
    · exact absurd List.mem_cons_self hnot
    · exact absurd (by decide) hnot
    · exact absurd (by decide) hnot
  · cases List.mem_singleton.mp hk
    unfold serviceMetadata
    cases truthy displayName <;> simp [Obj.keys]
  · unfold serviceMetadata at hx
    cases hname : truthy displayName with
    | none =>
      rw [hname] at hx
      cases List.mem_singleton.mp (Obj.mem_of_get hx)
      exact acceptsMember_of_listed rfl hidSchema
    | some name =>
      rw [hname] at hx
      rcases List.mem_pair.mp (Obj.mem_of_get hx) with heq | heq
      · cases heq
        exact acceptsMember_of_listed rfl hidSchema
      · cases heq
        exact acceptsMember_of_listed rfl (accepts_typeSchema.mpr rfl)

theorem accepts_serviceEnvelope (hid : idPattern.test id = true) (spec : Obj Json)
    (displayName : Option JsString) :
    Accepts (coreKeywords rest) envelopeSchema (serviceEnvelope id spec displayName) := by
  -- of the sample, the version and the kind
  have hsample : Accepts (coreKeywords rest) envelopeSchema (sampleDraft .null) := accepts_sampleDraft
  obtain ⟨-, -, hmembers⟩ := accepts_object_iff.mp hsample
  rw [envelopeSchema, serviceEnvelope, accepts_object_iff]
  refine ⟨assertions_of_mem fun e he hnot => ?_, fun k hk => ?_, fun k x hx => ?_⟩
  · simp only [List.mem_cons, List.not_mem_nil, or_false] at he
    rcases he with rfl | rfl | rfl | rfl | rfl | rfl | rfl
    · exact keyword_annotation (by decide)
    · exact keyword_annotation (by decide)
    · exact keyword_annotation (by decide)
    · exact keyword_type.mpr rfl
    · exact absurd List.mem_cons_self hnot
    · exact absurd (by decide) hnot
    · exact absurd (by decide) hnot
  · have hk : Json.str k ∈ [Json.str (js "schemaVersion"), .str (js "kind"), .str (js "metadata"), .str (js "spec")] := hk
    simp only [List.mem_cons, List.not_mem_nil, or_false, Json.str.injEq] at hk
    rcases hk with rfl | rfl | rfl | rfl <;> simp [Obj.keys]
  · have hmem := Obj.mem_of_get hx
    simp only [List.mem_cons, List.not_mem_nil, or_false, Prod.mk.injEq] at hmem
    rcases hmem with ⟨rfl, rfl⟩ | ⟨rfl, rfl⟩ | ⟨rfl, rfl⟩ | ⟨rfl, rfl⟩
    · exact hmembers (js "kind") _ rfl
    · exact hmembers (js "schemaVersion") _ rfl
    · exact acceptsMember_of_listed rfl (accepts_metadata hid displayName)
    · exact acceptsMember_of_listed rfl (accepts_typeSchema.mpr rfl)

theorem proper_serviceEnvelope (h : (Json.obj spec).Proper) (id : JsString)
    (displayName : Option JsString) : (serviceEnvelope id spec displayName).Proper := by
  have hmetadata : (Json.obj (serviceMetadata id displayName)).Proper := by
    unfold serviceMetadata
    have hkeys : [js "id", js "displayName"].Nodup ∧
        ∀ k ∈ [js "id", js "displayName"], arrayIndex k = none := by decide +kernel
    have hone : [js "id"].Nodup ∧ ∀ k ∈ [js "id"], arrayIndex k = none := by decide +kernel
    cases truthy displayName with
    | none =>
      exact Json.Proper.plain (o := [(js "id", .str id)]) hone.1 hone.2 (by simp [Json.Proper.str])
    | some name =>
      refine Json.Proper.plain (o := [(js "id", .str id), (js "displayName", .str name)]) hkeys.1 hkeys.2 ?_
      simp [Json.Proper.str]
  have hkeys : [js "kind", js "schemaVersion", js "metadata", js "spec"].Nodup ∧
      ∀ k ∈ [js "kind", js "schemaVersion", js "metadata", js "spec"], arrayIndex k = none := by
    decide +kernel
  refine Json.Proper.plain (o := [_, _, _, _]) hkeys.1 hkeys.2 ?_
  simp only [List.forall_mem_cons, List.not_mem_nil, IsEmpty.forall_iff, implies_true, and_true]
  exact ⟨.str _, .num _, hmetadata, h⟩

/-- The gap of the documents is white space. -/
theorem blank_indent : Blank (js "  ") := by
  intro u hu
  have hspace : (js "  ").all jsonSpace = true := by decide
  exact List.all_eq_true.mp hspace u hu

/-- The loader takes an admissible document. -/
theorem validateEnvelope_admissible (hfits : AjvFits rest ajv deps) (h : Admissible rest id doc) :
    validateEnvelope deps (serviceEnvelope id doc.spec doc.displayName) =
      .ok ⟨js "Service", id, .obj doc.spec, none⟩ := by
  have henvelope := hfits.envelope _ (accepts_serviceEnvelope h.id doc.spec doc.displayName)
  have hspec : (serviceEnvelope id doc.spec doc.displayName).prop (js "spec") = some (.obj doc.spec) := rfl
  have hkind : textProp (serviceEnvelope id doc.spec doc.displayName) "kind" = some (js "Service") := rfl
  have hversion : numProp (serviceEnvelope id doc.spec doc.displayName) "schemaVersion" = some 1 := rfl
  have hid : textProp (((serviceEnvelope id doc.spec doc.displayName).prop (js "metadata")).getD .null) "id" =
      some id := by
    show textProp (.obj (serviceMetadata id doc.displayName)) "id" = some id
    unfold serviceMetadata
    cases truthy doc.displayName <;> rfl
  have hold : ¬ (1 : ℚ) < (1 : Decimal).toRat := by decide +kernel
  have hvalidator : kindValidator deps (js "Service") (.obj doc.spec) = none := by
    rw [kindValidator, if_neg (by decide), if_pos rfl, hfits.service _ h.accepted]
  simp only [validateEnvelope, henvelope, hkind, hid, hspec, hversion, Option.getD_some, hvalidator,
    migrateDocumentSpec, if_neg hold]

theorem loadOneDocument_admissible (hfits : AjvFits rest ajv deps) (h : Admissible rest id doc)
    {faults : ReadFaults} (hread : ∀ path, faults.file path = none) (path : JsString) :
    loadOneDocument deps faults (path, serviceText id doc.spec doc.displayName) =
      .ok ⟨js "Service", id, .obj doc.spec, none⟩ := by
  have hproper := proper_serviceEnvelope h.proper id doc.displayName
  simp only [loadOneDocument, hread, serviceText, parse_stringifyIndent (N := deps.numerals) blank_indent hproper,
    validateEnvelope_admissible hfits h]

/-- A draft that the composed schema accepts, with a plugin, is accepted by the core's. -/
theorem core_of_composed {d : Json} {deploy : Obj Json} {plugin : JsString}
    (h : Accepts (coreKeywords rest) (serviceSchemaWith d) (.obj spec))
    (hdeploy : Obj.get spec (js "deploy") = some (.obj deploy))
    (hplugin : Obj.get deploy (js "plugin") = some (.str plugin)) (hne : plugin ≠ []) :
    Accepts (coreKeywords rest) serviceSchema (.obj spec) := by
  obtain ⟨w, hw, hdeployed, hexposed, hmembers⟩ := accepts_serviceSchemaWith.mp h
  cases hw
  refine accepts_serviceSchemaWith.mpr ⟨spec, rfl, hdeployed, hexposed, fun k x hx => ?_⟩
  rcases hmembers k x hx with ⟨rfl, -⟩ | hexpose
  · rw [hdeploy, Option.some.injEq] at hx
    subst hx
    refine .inl ⟨rfl, accepts_deployAnchor.mpr
      ⟨deploy, rfl, Obj.mem_keys_iff_get.mpr ⟨_, hplugin⟩, fun k x hx => ?_⟩⟩
    refine asksOf_core.mpr ?_
    rintro rfl
    rw [hplugin, Option.some.injEq] at hx
    exact ⟨plugin, hx.symm, hne⟩
  · exact .inr hexpose

theorem proper_spreadMembers {v : Json} (h : v.Proper) : ∀ e ∈ spreadMembers v, e.2.Proper := by
  cases h with
  | null => simp [spreadMembers]
  | bool b => simp [spreadMembers]
  | num d => simp [spreadMembers]
  | str s =>
    intro e he
    obtain ⟨x, -, rfl⟩ := List.mem_map.mp he
    exact .str _
  | arr hitems =>
    intro e he
    obtain ⟨x, hx, rfl⟩ := List.mem_map.mp he
    exact hitems _ (List.fst_mem_of_mem_zipIdx hx)
  | obj _ hmember => exact hmember

theorem proper_get {o : Obj Json} {k : JsString} (h : (Json.obj o).Proper) :
    ((Obj.get o k).getD .null).Proper := by
  cases hget : Obj.get o k with
  | none => exact .null
  | some x => exact h.member _ (Obj.mem_of_get hget)

/-- What is saved is admissible: the form fills in the plugin, and the composed schema asks for the
rest. -/
theorem admissible_of_save (hfits : AjvFits rest ajv deps) {form : Form} {published : Option Published}
    (h : saveServiceAction ajv (published.map Published.composed) form.id form.displayName form.spec = .ok doc) :
    Admissible rest form.id doc := by
  unfold saveServiceAction at h
  split at h
  · cases h
  · rename_i hid
    cases published with
    | none => cases h
    | some p =>
      simp only [Option.map_some] at h
      split at h
      · cases h
      · rename_i plugin hplugin
        split at h
        · cases h
        · rename_i hvalid
          cases h
          have hne : plugin ≠ [] := by
            obtain ⟨-, hne⟩ := Option.filter_eq_some_iff.mp hplugin
            simpa using hne
          have hmembers := proper_spreadMembers (proper_get (k := js "deploy") form.proper)
          have hdeploy := (Json.Proper.spread hmembers).setOwn (js "plugin") (.str plugin)
          have hspec := (Json.Proper.spread form.proper.member).setOwn (js "deploy") hdeploy
          have haccepts := hfits.composed _ _ (Option.map_eq_none_iff.mp hvalid)
          refine ⟨by simpa using hid, hspec, ?_⟩
          refine core_of_composed haccepts ((Obj.get_setOwn _ _ _ _).trans (if_pos rfl)) ?_ hne
          exact (Obj.get_setOwn _ _ _ _).trans (if_pos rfl)

/-- An exposition stays accepted when its volumes are to be removed. -/
theorem accepts_removing {w : Obj Json} (h : Accepts (coreKeywords rest) exposeSchema (.obj w)) :
    Accepts (coreKeywords rest) exposeSchema (.obj (Obj.setOwn w (js "removeVolumesOnDelete") (.bool true))) := by
  have hflag : Accepts (coreKeywords rest)
      (.obj [(js "type", .str (js "boolean")), (js "default", .bool false)]) (.bool true) := by
    refine accepts_obj_iff.mpr ⟨assertions_of_mem fun e he _ => ?_, nofun⟩
    rcases List.mem_pair.mp he with rfl | rfl
    · exact keyword_type.mpr rfl
    · exact keyword_annotation (by decide)
  rw [exposeSchema, accepts_object_iff] at h ⊢
  obtain ⟨-, hrequired, hmembers⟩ := h
  refine ⟨assertions_of_mem fun e he hnot => ?_, fun k hk => ?_, fun k x hx => ?_⟩
  · simp only [List.mem_cons, List.not_mem_nil, or_false] at he
    rcases he with rfl | rfl | rfl | rfl
    · exact keyword_type.mpr rfl
    · exact absurd List.mem_cons_self hnot
    · exact absurd (by decide) hnot
    · exact absurd (by decide) hnot
  · obtain ⟨x, hx⟩ := Obj.mem_keys_iff_get.mp (hrequired k hk)
    rw [Obj.mem_keys_iff_get]
    refine ⟨if js "removeVolumesOnDelete" = k then .bool true else x, ?_⟩
    rw [Obj.get_setOwn, hx]
    split <;> rfl
  · rw [Obj.get_setOwn] at hx
    split at hx
    · rename_i hk
      subst hk
      cases hx
      exact acceptsMember_of_listed rfl hflag
    · exact hmembers k x hx

theorem admissible_removing (h : Admissible rest id doc) :
    Admissible rest id (removingVolumes (serviceEnvelope id doc.spec doc.displayName)) := by
  obtain ⟨w, hw, hdeployed, hexposed, hmembers⟩ := accepts_serviceSchemaWith.mp h.accepted
  cases hw
  obtain ⟨expose, hexpose⟩ := Obj.mem_keys_iff_get.mp hexposed
  have hobject : ∃ o, expose = .obj o := by
    rcases hmembers _ expose hexpose with ⟨hne, -⟩ | ⟨-, hexpose'⟩
    · exact absurd hne (by decide)
    · rw [exposeSchema] at hexpose'
      have htype := (accepts_obj_iff.mp hexpose').1 (js "type") (.str (js "object")) rfl (by decide)
      exact hasType_object.mp (keyword_type.mp htype)
  obtain ⟨o, rfl⟩ := hobject
  have hproper : (Json.obj o).Proper := h.proper.member _ (Obj.mem_of_get hexpose)
  have hspec : (removingVolumes (serviceEnvelope id doc.spec doc.displayName)).spec =
      Obj.setOwn doc.spec (js "expose") (.obj (Obj.setOwn o (js "removeVolumesOnDelete") (.bool true))) := by
    have hget : ((serviceEnvelope id doc.spec doc.displayName).prop (js "spec")).getD .null = .obj doc.spec := rfl
    have hget' : (Json.obj doc.spec).prop (js "expose") = some (.obj o) := hexpose
    simp only [removingVolumes, hget, hget', Option.getD_some, spreadMembers, h.proper.own, hproper.own]
  refine ⟨h.id, ?_, ?_⟩
  · rw [hspec]
    exact h.proper.setOwn _ (hproper.setOwn _ (.bool true))
  · rw [hspec]
    refine accepts_serviceSchemaWith.mpr ⟨_, rfl, ?_, ?_, fun k x hx => ?_⟩
    · obtain ⟨x, hx⟩ := Obj.mem_keys_iff_get.mp hdeployed
      exact Obj.mem_keys_iff_get.mpr ⟨x, by rw [Obj.get_setOwn, if_neg (by decide), hx]⟩
    · exact Obj.mem_keys_iff_get.mpr ⟨_, by rw [Obj.get_setOwn, if_pos rfl]⟩
    · rw [Obj.get_setOwn] at hx
      split at hx
      · rename_i hk
        subst hk
        cases hx
        rcases hmembers _ _ hexpose with ⟨hne, -⟩ | ⟨-, haccepts⟩
        · exact absurd hne (by decide)
        · exact .inr ⟨rfl, accepts_removing haccepts⟩
      · exact hmembers k x hx

end Accepted

/-! ### Documents in files -/

/-- The volume has the documents, each in its file, and nothing else that ends in `.json`. -/
structure Holds (t : Volume) (docs : JsString → Option ServiceDoc) : Prop where
  dir : ∀ c, t.node servicesDir ≠ some (.file c)
  doc : ∀ id, t.node (serviceDocPath id) =
    (docs id).map fun doc => .file (serviceText id doc.spec doc.displayName)
  /-- There are no directories within. -/
  flat : ∀ name, t.node (servicesDir ++ [name]) ≠ some .dir

section Files

variable {t : Volume} {docs : JsString → Option ServiceDoc} {id : JsString} {hex : TempHex}

theorem entry_prefix_iff {a b : JsString} : servicesDir ++ [a] <+: servicesDir ++ [b] ↔ a = b := by
  simp [List.prefix_append_right_inj]

theorem docName_inj {id' : JsString} : docName id = docName id' ↔ id = id' := List.append_left_inj _

/-- A temporary name ends in a hexadecimal digit. -/
theorem tmpName_ne_docName (id : JsString) (hex : TempHex) (id' : JsString) :
    tmpName id hex ≠ docName id' := by
  have hne : hex.hex ≠ [] := by
    intro h
    have hlength := hex.length
    rw [h] at hlength
    exact absurd hlength (by decide)
  intro h
  have hlast := congrArg List.getLast? h
  rw [tmpName, docName, docName, List.getLast?_append_of_ne_nil _ hne,
    List.getLast?_append_of_ne_nil _ (by decide)] at hlast
  have hmem : (110 : UInt16) ∈ hex.hex := List.mem_of_getLast? (hlast.trans (by decide))
  rcases hex.digits 110 hmem with h | ⟨-, h⟩
  · exact absurd h (by decide)
  · exact absurd h (by decide)

/-- A temporary file can be written, and is no document. -/
theorem Holds.writeTemp (h : Holds t docs) (id : JsString) (hex : TempHex) (text : JsString) :
    ∃ t', writeTemp t id hex text = some t' ∧ Holds t' docs ∧ t'.node servicesDir = some .dir ∧
      t'.node (tmpPath id hex) = some (.file text) := by
  have hfree : ∀ q, q <+: servicesDir → ∀ c, t.node q ≠ some (.file c) := by
    intro q hq c hc
    rcases List.prefix_concat_iff.mp (show q <+: [] ++ [js "services"] from hq) with rfl | hq
    · exact h.dir c hc
    · rw [List.prefix_nil.mp hq, t.root] at hc
      cases hc
  obtain ⟨t₁, ht₁⟩ := FileTree.exists_mkdirp (t := t) (p := servicesDir) hfree
  have hnode₁ := FileTree.node_mkdirp ht₁
  have hentry₁ : ∀ name, t₁.node (servicesDir ++ [name]) = t.node (servicesDir ++ [name]) := by
    intro name
    rw [hnode₁, if_neg]
    exact fun hprefix => absurd hprefix.length_le (by simp)
  have hdir₁ : t₁.node servicesDir = some .dir := by rw [hnode₁, if_pos (List.prefix_refl _)]
  obtain ⟨t', ht'⟩ := FileTree.exists_writeFile (t := t₁) (p := tmpPath id hex) (by simp [tmpPath])
    (by rw [tmpPath, List.dropLast_concat, hdir₁]) (by rw [tmpPath, hentry₁]; exact h.flat _) text
  have hnode := FileTree.node_writeFile ht'
  have hdir : t'.node servicesDir = some .dir := by
    rw [hnode, if_neg, hdir₁]
    exact fun heq => absurd (congrArg List.length heq) (by simp [tmpPath])
  refine ⟨t', by rw [Tier1.writeTemp, ht₁]; exact ht', ⟨?_, ?_, ?_⟩, hdir, by rw [hnode, if_pos rfl]⟩
  · rw [hdir]
    exact fun c => nofun
  · intro id'
    rw [hnode, if_neg, serviceDocPath, hentry₁]
    · exact h.doc id'
    · intro heq
      exact tmpName_ne_docName id hex id' (List.singleton_inj.mp (List.append_cancel_left heq)).symm
  · intro name
    rw [hnode]
    split
    · exact nofun
    · rw [hentry₁]
      exact h.flat name

/-- A document is written in one piece. -/
theorem Holds.writeServiceDoc (h : Holds t docs) (id : JsString) (hex : TempHex) (doc : ServiceDoc) :
    Holds (writeServiceDoc t id hex doc.spec doc.displayName) (Function.update docs id (some doc)) := by
  obtain ⟨t₁, ht₁, h₁, hdir, htmp⟩ := h.writeTemp id hex (serviceText id doc.spec doc.displayName)
  obtain ⟨t', ht'⟩ := FileTree.exists_rename_file (q := serviceDocPath id) htmp
    (by rw [tmpPath, serviceDocPath, entry_prefix_iff]; exact tmpName_ne_docName id hex id)
    (by simp [serviceDocPath]) (by rw [serviceDocPath, List.dropLast_concat, hdir]) (h₁.flat _)
  have hnode := FileTree.node_rename ht'
  have hwritten : Tier1.writeServiceDoc t id hex doc.spec doc.displayName = t' := by
    rw [Tier1.writeServiceDoc, atomicWriteFile, ht₁]
    show (t₁.rename _ _).getD t = t'
    rw [ht']
    rfl
  have hentry : ∀ name, t'.node (servicesDir ++ [name]) =
      if docName id = name then some (.file (serviceText id doc.spec doc.displayName))
      else if tmpName id hex = name then none else t₁.node (servicesDir ++ [name]) := by
    intro name
    rw [hnode, serviceDocPath, tmpPath]
    simp only [entry_prefix_iff]
    split
    · rename_i heq
      subst heq
      rw [List.drop_length, List.append_nil]
      exact htmp
    · rfl
  rw [hwritten]
  refine ⟨?_, ?_, ?_⟩
  · rw [hnode, if_neg (fun hprefix => absurd hprefix.length_le (by simp [serviceDocPath])),
      if_neg (fun hprefix => absurd hprefix.length_le (by simp [tmpPath])), hdir]
    exact fun c => nofun
  · intro id'
    rw [serviceDocPath, hentry]
    by_cases heq : id = id'
    · subst heq
      rw [if_pos rfl, Function.update_self]
      rfl
    · rw [if_neg (fun hname => heq (docName_inj.mp hname)), if_neg (tmpName_ne_docName id hex id'),
        Function.update_of_ne (Ne.symm heq)]
      exact h₁.doc id'
  · intro name
    rw [hentry]
    split
    · exact nofun
    · split
      · exact nofun
      · exact h₁.flat name

/-- A document is deleted, and no other. -/
theorem Holds.deleteServiceDoc (h : Holds t docs) (id : JsString) :
    Holds (deleteServiceDoc t id) (Function.update docs id none) := by
  unfold Tier1.deleteServiceDoc rmFile
  split
  · have hnode := FileTree.node_remove (t := t) (p := serviceDocPath id) (by simp [serviceDocPath])
    refine ⟨?_, fun id' => ?_, fun name => ?_⟩
    · rw [hnode, if_neg fun hprefix => absurd hprefix.length_le (by simp [serviceDocPath])]
      exact h.dir
    · rw [hnode]
      simp only [serviceDocPath, entry_prefix_iff, docName_inj]
      by_cases heq : id = id'
      · rw [if_pos heq, heq, Function.update_self]
        rfl
      · rw [if_neg heq, Function.update_of_ne (Ne.symm heq)]
        exact h.doc id'
    · rw [hnode]
      split
      · exact nofun
      · exact h.flat name
  · rename_i hfile
    have hnone : docs id = none := by
      cases hdoc : docs id with
      | none => rfl
      | some doc =>
        refine absurd (FileTree.isFile_iff.mpr ⟨serviceText id doc.spec doc.displayName, ?_⟩) hfile
        rw [h.doc, hdoc, Option.map_some]
    rwa [Function.update_eq_self_iff.mpr hnone.symm]

/-- What the list shows. -/
theorem Holds.mem_listServiceIds (h : Holds t docs) {id : JsString} :
    id ∈ listServiceIds t ↔ ∃ doc, docs id = some doc := by
  have hdoc : (∃ doc, docs id = some doc) ↔ t.node (serviceDocPath id) ≠ none := by
    rw [h.doc]
    cases docs id <;> simp
  rw [hdoc, listServiceIds, FileTree.readdir]
  split
  · rename_i hnone
    have hdir : ¬ t.isDir servicesDir = true := fun hdir => by rw [if_pos hdir] at hnone; cases hnone
    refine iff_of_false List.not_mem_nil (not_not_intro ?_)
    by_contra hsome
    exact hdir (FileTree.isDir_iff.mpr (t.closed servicesDir (docName id) hsome))
  · rename_i files hfiles
    have hentries : files = t.entries servicesDir := by
      split at hfiles
      · exact (Option.some.inj hfiles).symm
      · cases hfiles
    simp only [List.mem_map, List.mem_filter, endsWith_iff, hentries, FileTree.mem_entries]
    constructor
    · rintro ⟨_, ⟨hnode, id', rfl⟩, rfl⟩
      rw [List.length_append, Nat.add_sub_cancel, List.take_left]
      exact hnode
    · intro hnode
      exact ⟨docName id, ⟨hnode, id, rfl⟩, by rw [docName, List.length_append, Nat.add_sub_cancel, List.take_left]⟩

/-- What the edit page reads. -/
theorem Holds.readServiceDoc (h : Holds t docs) (N : Numerals) (id : JsString)
    (hproper : ∀ doc, docs id = some doc → (Json.obj doc.spec).Proper) :
    readServiceDoc N t id = (docs id).map fun doc => serviceEnvelope id doc.spec doc.displayName := by
  cases hdoc : docs id with
  | none =>
    have hnone : t.readFile (serviceDocPath id) = none := by
      rw [Option.eq_none_iff_forall_ne_some]
      intro c hc
      rw [FileTree.readFile_iff, h.doc, hdoc] at hc
      cases hc
    rw [Tier1.readServiceDoc, hnone]
    rfl
  | some doc =>
    have hfile : t.readFile (serviceDocPath id) = some (serviceText id doc.spec doc.displayName) := by
      rw [FileTree.readFile_iff, h.doc, hdoc, Option.map_some]
    have henvelope := proper_serviceEnvelope (hproper doc hdoc) id doc.displayName
    rw [Tier1.readServiceDoc, hfile, Option.bind_some, serviceText, parse_stringifyIndent blank_indent henvelope,
      Option.map_some]

end Files

/-! ### Effects on files and on what is saved -/

/-- The volume has what is saved, and what is saved is admissible. -/
structure Refines (rest : Assertions) (s : Services) (a : Saved) : Prop where
  holds : Holds s.tree a.docs
  admissible : ∀ id doc, a.docs id = some doc → Admissible rest id doc
  deleting : s.deleting = a.deleting.map fun e => (e.1, serviceEnvelope e.1 e.2.spec e.2.displayName)
  deleting_admissible : ∀ e ∈ a.deleting, Admissible rest e.1 e.2

section Refines

variable {rest : Assertions} {ajv : Ajv} {deps : LoaderDeps} {N : Numerals} {s : Services} {a : Saved}

theorem admissible_update {docs : JsString → Option ServiceDoc}
    (h : ∀ id doc, docs id = some doc → Admissible rest id doc) {id : JsString} {new : Option ServiceDoc}
    (hnew : ∀ doc, new = some doc → Admissible rest id doc) :
    ∀ id' doc, Function.update docs id new id' = some doc → Admissible rest id' doc := by
  intro id' doc hdoc
  by_cases heq : id' = id
  · subst heq
    rw [Function.update_self] at hdoc
    exact hnew doc hdoc
  · rw [Function.update_of_ne heq] at hdoc
    exact h id' doc hdoc

theorem Refines.empty : Refines rest .empty .empty where
  holds := by
    refine ⟨fun c => nofun, fun id => ?_, fun name => nofun⟩
    rfl
  admissible := nofun
  deleting := rfl
  deleting_admissible := by simp [Saved.empty]

/-- **One effect** is the same on the files and on what is saved. -/
theorem Refines.step (hfits : AjvFits rest ajv deps) (h : Refines rest s a) (e : Effect) :
    Refines rest (s.step N ajv e) (a.step ajv e) := by
  cases e with
  | save form published hex =>
    cases hsave : saveServiceAction ajv (published.map Published.composed) form.id form.displayName form.spec with
    | error _ =>
      simp only [Services.step, Saved.step, hsave]
      exact h
    | ok doc =>
      simp only [Services.step, Saved.step, hsave]
      refine ⟨h.holds.writeServiceDoc form.id hex doc, admissible_update h.admissible fun doc' hdoc' => ?_,
        h.deleting, h.deleting_admissible⟩
      cases hdoc'
      exact admissible_of_save hfits hsave
  | torn id hex part =>
    obtain ⟨t', ht', hholds, -, -⟩ := h.holds.writeTemp id.1 hex part
    simp only [Services.step, Saved.step, ht', Option.getD_some]
    exact ⟨hholds, h.admissible, h.deleting, h.deleting_admissible⟩
  | confirm id =>
    have hread := h.holds.readServiceDoc N id.1 fun doc hdoc => (h.admissible _ doc hdoc).proper
    cases hdoc : a.docs id.1 with
    | none =>
      rw [hdoc, Option.map_none] at hread
      simp only [Services.step, Saved.step, hread, hdoc]
      exact h
    | some doc =>
      rw [hdoc, Option.map_some] at hread
      simp only [Services.step, Saved.step, hread, hdoc]
      refine ⟨h.holds, h.admissible, by rw [h.deleting, List.map_append]; rfl,
        List.forall_mem_append.mpr ⟨h.deleting_admissible, ?_⟩⟩
      rw [List.forall_mem_singleton]
      exact h.admissible _ doc hdoc
  | relabel k hex =>
    have hget : s.deleting[k]? =
        a.deleting[k]?.map fun e => (e.1, serviceEnvelope e.1 e.2.spec e.2.displayName) := by
      rw [h.deleting, List.getElem?_map]
    cases hk : a.deleting[k]? with
    | none =>
      rw [hk, Option.map_none] at hget
      simp only [Services.step, Saved.step, hget, hk]
      exact h
    | some entry =>
      obtain ⟨id, doc⟩ := entry
      rw [hk, Option.map_some] at hget
      simp only [Services.step, Saved.step, hget, hk]
      have hadmissible := admissible_removing (h.deleting_admissible _ (List.mem_of_getElem? hk))
      refine ⟨h.holds.writeServiceDoc id.1 hex _, admissible_update h.admissible fun doc' hdoc' => ?_, ?_,
        fun e he => h.deleting_admissible e (List.mem_of_mem_eraseIdx he)⟩
      · cases hdoc'
        exact hadmissible
      · rw [h.deleting, List.eraseIdx_map]
  | delete id =>
    simp only [Services.step, Saved.step]
    exact ⟨h.holds.deleteServiceDoc id.1, admissible_update h.admissible nofun, h.deleting, h.deleting_admissible⟩

theorem Refines.run (hfits : AjvFits rest ajv deps) (h : Refines rest s a) (effects : List Effect) :
    Refines rest (s.run N ajv effects) (a.run ajv effects) := by
  unfold Services.run Saved.run
  induction effects generalizing s a with
  | nil => exact h
  | cons e effects ih => exact ih (h.step hfits e)

end Refines

/-! ### LOAD -/

/-- What `readdir` and `readFile` find in the services directory. -/
def dirEntries (t : Volume) : List DirEntry :=
  (t.entries servicesDir).map fun name =>
    ⟨name, t.isFile (servicesDir ++ [name]), (t.readFile (servicesDir ++ [name])).getD []⟩

/-- Every read succeeds. -/
def noFaults : ReadFaults := ⟨fun _ => none, fun _ => none⟩

/-- The service of a document. -/
def ServiceDoc.toService (id : JsString) (doc : ServiceDoc) : Service :=
  LoadedDocument.toService ⟨js "Service", id, .obj doc.spec, none⟩

section Load

variable {rest : Assertions} {ajv : Ajv} {deps : LoaderDeps} {ds : DesiredState}
  {files : List (JsString × JsString)} {faults : ReadFaults} {t : Volume} {docs : JsString → Option ServiceDoc}

theorem find?_setService (services : List Service) (s : Service) (id : JsString) :
    (Orchestrator.setService services s).find? (fun t => t.id == id) =
      if s.id = id then some s else services.find? fun t => t.id == id := by
  unfold Orchestrator.setService
  split
  · rename_i hany
    have hsame : ((fun t : Service => t.id == id) ∘ fun t => if t.id == s.id then s else t) =
        fun t => t.id == id := by
      funext t
      by_cases ht : t.id = s.id <;> simp [ht]
    rw [List.find?_map, hsame]
    cases hfind : services.find? fun t => t.id == id with
    | none =>
      obtain ⟨t, ht, heq⟩ := List.any_eq_true.mp hany
      have hother := List.find?_eq_none.mp hfind t ht
      rw [beq_iff_eq.mp heq] at hother
      rw [if_neg (by simpa using hother)]
      rfl
    | some t =>
      have ht : t.id = id := by simpa using List.find?_some hfind
      by_cases hid : s.id = id
      · rw [if_pos hid, Option.map_some, if_pos (by rw [ht, hid, beq_self_eq_true])]
      · rw [if_neg hid, Option.map_some, if_neg (by rw [ht, beq_iff_eq]; exact Ne.symm hid)]
  · rename_i hany
    rw [List.find?_append]
    by_cases hid : s.id = id
    · have hnone : services.find? (fun t => t.id == id) = none := by
        rw [List.find?_eq_none]
        intro t ht heq
        exact hany (List.any_eq_true.mpr ⟨t, ht, by simpa [hid] using heq⟩)
      simp [hnone, hid]
    · simp [hid]

theorem service_setService (ds : DesiredState) (s : Service) (id : JsString) :
    (ds.setService s).service id = if s.id = id then some s else ds.service id :=
  find?_setService ds.services s id

/-- Files that are all documents, of the services `want`. -/
theorem foldl_addServiceFile (want : JsString → Option Service)
    (hfiles : ∀ file ∈ files, ∃ doc, loadOneDocument deps faults file = .ok doc ∧ want doc.id = some doc.toService)
    (hall : ∀ id s, want id = some s →
      (∃ file ∈ files, ∃ doc, loadOneDocument deps faults file = .ok doc ∧ doc.id = id) ∨ ds.service id = some s)
    (hbase : ∀ id, ds.service id = none ∨ ds.service id = want id) :
    (files.foldl (addServiceFile deps faults) ds).errors = ds.errors ∧
      ∀ id, (files.foldl (addServiceFile deps faults) ds).service id = want id := by
  induction files generalizing ds with
  | nil =>
    refine ⟨rfl, fun id => ?_⟩
    cases hid : want id with
    | none =>
      rcases hbase id with h | h
      · exact h
      · exact h.trans hid
    | some s =>
      rcases hall id s hid with ⟨file, hfile, -⟩ | h
      · exact absurd hfile List.not_mem_nil
      · exact h
  | cons file files ih =>
    obtain ⟨⟨doc, hdoc, hwant⟩, hfiles⟩ := List.forall_mem_cons.mp hfiles
    have hadd : addServiceFile deps faults ds file = ds.setService doc.toService := by
      rw [addServiceFile, hdoc]
    rw [List.foldl_cons, hadd]
    refine ih hfiles (fun id s hs => ?_) fun id => ?_
    · rw [service_setService]
      rcases hall id s hs with ⟨file', hfile', doc', hdoc', rfl⟩ | h
      · rcases List.mem_cons.mp hfile' with rfl | hfile'
        · rw [hdoc, Except.ok.injEq] at hdoc'
          subst hdoc'
          rw [hwant, Option.some.injEq] at hs
          exact .inr (by rw [if_pos (show doc.toService.id = doc.id from rfl), hs])
        · exact .inl ⟨file', hfile', doc', hdoc', rfl⟩
      · by_cases hid : doc.id = id
        · rw [hid, hs, Option.some.injEq] at hwant
          exact .inr (by rw [if_pos (show doc.toService.id = id from hid), hwant])
        · exact .inr (by rw [if_neg (show ¬ doc.toService.id = id from hid), h])
    · rw [service_setService]
      by_cases hid : doc.id = id
      · rw [if_pos (show doc.toService.id = id from hid), ← hid, hwant]
        exact .inr rfl
      · rw [if_neg (show ¬ doc.toService.id = id from hid)]
        exact hbase id

/-- The listed documents are those that the volume holds. -/
theorem Holds.mem_listJsonFiles (h : Holds t docs) {listing : List DirEntry}
    (hlisting : listing.Perm (dirEntries t)) (dir : JsString) {file : JsString × JsString} :
    file ∈ listJsonFiles noFaults dir listing ↔ ∃ id doc, docs id = some doc ∧
      file = (dir ++ js "/" ++ docName id, serviceText id doc.spec doc.displayName) := by
  show file ∈ (listing.filter DirEntry.isJson).map _ ↔ _
  simp only [List.mem_map, List.mem_filter, hlisting.mem_iff, dirEntries]
  constructor
  · rintro ⟨e, ⟨⟨name, hname, rfl⟩, hjson⟩, rfl⟩
    rw [DirEntry.isJson, Bool.and_eq_true, endsWith_iff] at hjson
    obtain ⟨hfile, id, rfl⟩ := hjson
    obtain ⟨c, hc⟩ := FileTree.isFile_iff.mp hfile
    have hdoc := (h.doc id).symm.trans hc
    obtain ⟨doc, hid, htext⟩ := Option.map_eq_some_iff.mp hdoc
    cases htext
    exact ⟨id, doc, hid, by rw [FileTree.readFile_iff.mpr hc, Option.getD_some]; rfl⟩
  · rintro ⟨id, doc, hid, rfl⟩
    have hnode : t.node (servicesDir ++ [docName id]) =
        some (.file (serviceText id doc.spec doc.displayName)) := by
      have hdoc := h.doc id
      rwa [hid, Option.map_some] at hdoc
    refine ⟨_, ⟨⟨docName id, FileTree.mem_entries.mpr (by rw [hnode]; exact nofun), rfl⟩, ?_⟩, ?_⟩
    · rw [DirEntry.isJson, Bool.and_eq_true, endsWith_iff]
      exact ⟨FileTree.isFile_iff.mpr ⟨_, hnode⟩, id, rfl⟩
    · rw [FileTree.readFile_iff.mpr hnode, Option.getD_some]

/-- LOAD gets the services that the volume holds. -/
theorem Holds.load (hfits : AjvFits rest ajv deps) (h : Holds t docs)
    (hadmissible : ∀ id doc, docs id = some doc → Admissible rest id doc) {listing : List DirEntry}
    (hlisting : listing.Perm (dirEntries t)) (desiredDir : JsString) (frameworkRaw : Option Json) :
    (loadDesiredState deps desiredDir ⟨listing, []⟩ noFaults frameworkRaw).errors =
      (loadFramework deps frameworkRaw).errors ∧
      ∀ id, (loadDesiredState deps desiredDir ⟨listing, []⟩ noFaults frameworkRaw).service id =
        (docs id).map (ServiceDoc.toService id) := by
  have hbare : ∀ id, (loadFramework deps frameworkRaw).service id = none := by
    intro id
    unfold loadFramework
    split <;> rfl
  have hloaded : ∀ id doc, docs id = some doc → ∀ path,
      loadOneDocument deps noFaults (path, serviceText id doc.spec doc.displayName) =
        .ok ⟨js "Service", id, .obj doc.spec, none⟩ :=
    fun id doc hid path => loadOneDocument_admissible hfits (hadmissible id doc hid) (fun _ => rfl) path
  refine foldl_addServiceFile (fun id => (docs id).map (ServiceDoc.toService id)) (fun file hfile => ?_)
    (fun id s hs => ?_) fun id => .inl (hbare id)
  · obtain ⟨id, doc, hid, rfl⟩ := (h.mem_listJsonFiles hlisting _).mp hfile
    refine ⟨_, hloaded id doc hid _, ?_⟩
    simp only [hid, Option.map_some, ServiceDoc.toService]
  · obtain ⟨doc, hid, -⟩ := Option.map_eq_some_iff.mp hs
    exact .inl ⟨_, (h.mem_listJsonFiles hlisting _).mpr ⟨id, doc, hid, rfl⟩, _, hloaded id doc hid _, rfl⟩

/-- **What the services pages saved is what the orchestrator loads.** After any effects of requests,
the pages list and show the documents as they were last saved, and LOAD gets their services, no more
and no fewer, with no error of its own. -/
theorem saved_documents_loaded (hfits : AjvFits rest ajv deps) (effects : List Effect) {listing : List DirEntry}
    (hlisting : listing.Perm (dirEntries (Services.empty.run deps.numerals ajv effects).tree))
    (desiredDir : JsString) (frameworkRaw : Option Json) :
    (∀ id, id ∈ listServiceIds (Services.empty.run deps.numerals ajv effects).tree ↔
      ∃ doc, (Saved.empty.run ajv effects).docs id = some doc) ∧
    (∀ id, readServiceDoc deps.numerals (Services.empty.run deps.numerals ajv effects).tree id =
      ((Saved.empty.run ajv effects).docs id).map fun doc => serviceEnvelope id doc.spec doc.displayName) ∧
    (loadDesiredState deps desiredDir ⟨listing, []⟩ noFaults frameworkRaw).errors =
      (loadFramework deps frameworkRaw).errors ∧
    ∀ id, (loadDesiredState deps desiredDir ⟨listing, []⟩ noFaults frameworkRaw).service id =
      ((Saved.empty.run ajv effects).docs id).map (ServiceDoc.toService id) := by
  have hrefines : Refines rest (Services.empty.run deps.numerals ajv effects) (Saved.empty.run ajv effects) :=
    Refines.empty.run hfits effects
  refine ⟨fun id => hrefines.holds.mem_listServiceIds, fun id => ?_,
    hrefines.holds.load hfits hrefines.admissible hlisting desiredDir frameworkRaw⟩
  exact hrefines.holds.readServiceDoc deps.numerals id fun doc hdoc => (hrefines.admissible id doc hdoc).proper

end Load

/-! ### Services that are saved -/

/-- A trusted deploy plugin that asks nothing of its configuration. -/
def sampleBundles : Bundles where
  readManifest _ := some ⟨js "deploy-docker", [js "deploy"], some (js "config-schema.json")⟩
  readConfigSchema _ _ := some (.obj [(js "type", .str (js "object"))])

/-- A form with nothing but a hostname and a port. -/
def sampleForm (id displayName : JsString) : Form where
  id := id
  displayName := displayName
  spec := [(js "expose", sampleExpose)]
  proper := by
    have hkeys : [js "hostname", js "backendPort", js "backendProtocol"].Nodup ∧
        ∀ k ∈ [js "hostname", js "backendPort", js "backendProtocol"], arrayIndex k = none := by
      decide +kernel
    have hexpose : sampleExpose.Proper := by
      refine Json.Proper.plain (o := [_, _, _]) hkeys.1 hkeys.2 ?_
      simp only [List.forall_mem_cons, List.not_mem_nil, IsEmpty.forall_iff, implies_true, and_true]
      exact ⟨.str _, .num _, .str _⟩
    refine Json.Proper.plain (o := [(js "expose", sampleExpose)]) (by decide +kernel) (by decide +kernel) ?_
    simpa using hexpose

/-- Twelve digits. -/
def sampleHex : TempHex := ⟨js "0123456789ab", by simp [js, encode, utf16]; decide, by decide⟩

/-- It is saved. -/
def saveSample (id displayName : JsString) : Effect :=
  .save (sampleForm id displayName) (some ⟨.null, sampleBundles, [js "sha256"]⟩) sampleHex

/-- What is in its document. -/
def sampleSpec : Obj Json := [(js "expose", sampleExpose), (js "deploy", .obj [(js "plugin", .str (js "deploy-docker"))])]

theorem idPattern_blog : idPattern.test (js "blog") = true := by decide +kernel

theorem idPattern_notes : idPattern.test (js "notes") = true := by decide +kernel

/-- Two services are saved, one of them is deleted; the other is saved again, after a write of its document that
stopped half way. -/
def blogEffects : List Effect :=
  [saveSample (js "blog") (js "Blog"), saveSample (js "notes") (js "Notes"),
    .torn ⟨js "blog", idPattern_blog⟩ sampleHex (js "\x7b\n  \"kind\""), .delete ⟨js "notes", idPattern_notes⟩,
    saveSample (js "blog") (js "Weblog")]

theorem accepts_sampleSpec {rest : Assertions} : Accepts (coreKeywords rest) serviceSchema (.obj sampleSpec) := by
  refine accepts_serviceSchemaWith.mpr ⟨sampleSpec, rfl, by decide +kernel, by decide +kernel, fun k x hx => ?_⟩
  rcases List.mem_pair.mp (Obj.mem_of_get hx) with heq | heq
  · cases heq
    exact .inr ⟨rfl, accepts_sampleExpose⟩
  · cases heq
    refine .inl ⟨rfl, accepts_deployAnchor.mpr ⟨_, rfl, by decide +kernel, fun k x hx => asksOf_core.mpr ?_⟩⟩
    rintro rfl
    cases hx
    exact ⟨_, rfl, by decide⟩

theorem saved_saveSample {ajv : Ajv} (haccepts : ajv serviceSchema (.obj sampleSpec) = none) {id displayName : JsString}
    (hid : idPattern.test id = true) (hname : displayName ≠ []) (a : Saved) : a.step ajv (saveSample id displayName) =
      { a with docs := Function.update a.docs id (some ⟨sampleSpec, some displayName⟩) } := by
  have hbound : (buildComposedSchema .null sampleBundles [js "sha256"]).boundDeployPluginId = some (js "deploy-docker") := by
    decide +kernel
  have hservice : (buildComposedSchema .null sampleBundles [js "sha256"]).service = serviceSchema := rfl
  have hdraft : serviceDraft (js "deploy-docker") [(js "expose", sampleExpose)] = sampleSpec := rfl
  have hvalid : validateDocument ajv serviceSchema (.obj sampleSpec) = none := by
    rw [validateDocument, haccepts, Option.map_none]
  have htruthy : ∀ t : JsString, t ≠ [] → truthy (some t) = some t := fun t ht => by simp [truthy, ht]
  have hsave : saveServiceAction ajv (some (buildComposedSchema .null sampleBundles [js "sha256"])) id displayName
      [(js "expose", sampleExpose)] = .ok ⟨sampleSpec, some displayName⟩ := by
    simp only [saveServiceAction, hid, Bool.true_eq_false, if_false, hbound, htruthy _ (show js "deploy-docker" ≠ [] by decide),
      htruthy _ hname, hservice, hdraft, hvalid]
  simp only [saveSample, sampleForm, Saved.step, Option.map_some, Published.composed, hsave]

theorem saved_blogEffects {ajv : Ajv} (haccepts : ajv serviceSchema (.obj sampleSpec) = none) (id : JsString) :
    (Saved.empty.run ajv blogEffects).docs id =
      if id = js "blog" then some ⟨sampleSpec, some (js "Weblog")⟩ else none := by
  rw [Saved.run, blogEffects, List.foldl_cons, List.foldl_cons, List.foldl_cons, List.foldl_cons, List.foldl_cons,
    List.foldl_nil, saved_saveSample haccepts idPattern_blog (by decide), saved_saveSample haccepts idPattern_blog (by decide),
    saved_saveSample haccepts idPattern_notes (by decide)]
  simp only [Saved.step, Saved.empty, Function.update_apply]
  by_cases hblog : id = js "blog"
  · rw [if_pos hblog, if_pos hblog]
  · by_cases hnotes : id = js "notes"
    · rw [if_neg hblog, if_pos hnotes, if_neg hblog]
    · simp only [hblog, hnotes, if_false]

/-- The blog is left, as it was saved last, with validators that accept what the schemas do. -/
theorem saved_documents_loaded_blog : ∃ (ajv : Ajv) (deps : LoaderDeps), AjvFits (fun _ _ _ => True) ajv deps ∧
    (∀ id, id ∈ listServiceIds (Services.empty.run deps.numerals ajv blogEffects).tree ↔ id = js "blog") ∧
    readServiceDoc deps.numerals (Services.empty.run deps.numerals ajv blogEffects).tree (js "blog") =
      some (serviceEnvelope (js "blog") sampleSpec (some (js "Weblog"))) ∧
    ∀ id, (loadDesiredState deps (js "/data/desired")
        ⟨dirEntries (Services.empty.run deps.numerals ajv blogEffects).tree, []⟩ noFaults none).service id =
      if id = js "blog" then some (ServiceDoc.toService (js "blog") ⟨sampleSpec, some (js "Weblog")⟩) else none := by
  classical
  let check (schema v : Json) : Option (List (JsString × JsString)) :=
    if Accepts (coreKeywords fun _ _ _ => True) schema v then none else some [([], js "invalid")]
  have hcheck : ∀ {schema v}, Accepts (coreKeywords fun _ _ _ => True) schema v → check schema v = none :=
    fun h => if_pos h
  have hfits : AjvFits (fun _ _ _ => True) check
      ⟨check envelopeSchema, check .null, check serviceSchema, check .null, .exact, fun _ => []⟩ := by
    refine ⟨fun schema v h => ?_, fun v h => hcheck h, fun v h => hcheck h⟩
    by_contra hnot
    have hsome : check schema v = some [([], js "invalid")] := if_neg hnot
    rw [hsome] at h
    cases h
  obtain ⟨hlist, hread, -, hload⟩ :=
    saved_documents_loaded hfits blogEffects (List.Perm.refl _) (js "/data/desired") none
  have hdocs := saved_blogEffects (hcheck accepts_sampleSpec)
  refine ⟨check, _, hfits, fun id => ?_, ?_, fun id => ?_⟩
  · rw [hlist, hdocs]
    by_cases hid : id = js "blog" <;> simp [hid]
  · rw [hread, hdocs, if_pos rfl, Option.map_some]
  · rw [hload, hdocs]
    by_cases hid : id = js "blog" <;> simp [hid]

end Wanfw.Tier1
