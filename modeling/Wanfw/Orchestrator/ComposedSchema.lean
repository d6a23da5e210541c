import Wanfw.Js.Arrays
import Wanfw.Js.JsonSchema
import Wanfw.Js.Regex

/-!
# The composed schema

`composed-schema/compose.ts` mounts the configuration schema of the bound deploy plugin at
`spec.deploy` of the service schema, and `composed-schema/validate.ts` checks a draft document
against the result. Only `properties` is taken over, behind a schema of `plugin` that has lost its
`minLength`: what the plugin requires, and what it says about members that it does not list, is
dropped, and a plugin's schema of `plugin` replaces the core's.

`preserves_iff` says for which plugins every accepted draft satisfies the plugin's own schema and
the core's.
-/

namespace Wanfw.Orchestrator.Compose

open Wanfw.Js

/-! ### The core schemas -/

/-- `^[a-z0-9][a-z0-9-]*$`. -/
def idPattern : Re := .seqs [.bol, .cls fun u => isLower u || isDigit u, .star true fun u => isLower u || isDigit u || u == 45, .eol]

/-- The text of that pattern. -/
def idPatternText : Json := .str (js "^[a-z0-9][a-z0-9-]*$")

/-- The keywords of the core schemas. What the other keywords of plugins say is a parameter. -/
def coreKeywords (rest : Assertions) : Assertions := standard fun k s v =>
  (k = js "pattern" ∧ s = idPatternText → ∀ t, v = .str t → idPattern.test t = true) ∧
    (¬ (k = js "pattern" ∧ s = idPatternText) → rest k s v)

/-- `{ "type": "…" }`. -/
def typeSchema (type : JsString) : Json := .obj [(js "type", .str type)]

/-- `{ "type": "string", "minLength": 1 }`. -/
def nonEmptyString : Json := .obj [(js "type", .str (js "string")), (js "minLength", .num 1)]

/-- `envelope.schema.json`. -/
def envelopeSchema : Json := .obj [
  (js "$schema", .str (js "https://json-schema.org/draft/2020-12/schema")),
  (js "$id", .str (js "https://wanfw.dev/schemas/envelope.schema.json")),
  (js "title", .str (js "Document envelope")),
  (js "type", .str (js "object")),
  (js "properties", .obj [
    (js "schemaVersion", .obj [(js "type", .str (js "integer")), (js "minimum", .num 1)]),
    (js "kind", .obj [(js "type", .str (js "string")),
      (js "enum", .arr [.str (js "Framework"), .str (js "Service"), .str (js "PluginConfig")])]),
    (js "metadata", .obj [
      (js "type", .str (js "object")),
      (js "properties", .obj [
        (js "id", .obj [(js "type", .str (js "string")), (js "minLength", .num 1),
          (js "pattern", idPatternText)]),
        (js "displayName", typeSchema (js "string"))]),
      (js "required", .arr [.str (js "id")]),
      (js "additionalProperties", .bool false)]),
    (js "spec", typeSchema (js "object"))]),
  (js "required", .arr [.str (js "schemaVersion"), .str (js "kind"), .str (js "metadata"), .str (js "spec")]),
  (js "additionalProperties", .bool false)]

/-- The anchor `deploy` of the service schema, with the schemas of its members. -/
def deployAnchor (properties : Obj Json) : Json := .obj [
  (js "type", .str (js "object")),
  (js "description", .str (js ("Open anchor. At runtime the composed schema (§5.5) mounts the bound deploy plugin's configSchema here. " ++
    "Core only requires the discriminator field."))),
  (js "properties", .obj properties),
  (js "required", .arr [.str (js "plugin")])]

/-- The schema of `expose`. -/
def exposeSchema : Json := .obj [
  (js "type", .str (js "object")),
  (js "properties", .obj [
    (js "hostname", nonEmptyString),
    (js "backendPort", .obj [(js "type", .str (js "integer")), (js "minimum", .num 1), (js "maximum", .num 65535)]),
    (js "backendProtocol", .obj [(js "type", .str (js "string")), (js "enum", .arr [.str (js "http"), .str (js "https")])]),
    (js "isolationTier", .obj [(js "type", .str (js "string")), (js "enum", .arr [.str (js "standard"), .str (js "quarantine")]),
      (js "default", .str (js "standard"))]),
    (js "removeVolumesOnDelete", .obj [(js "type", .str (js "boolean")), (js "default", .bool false)])]),
  (js "required", .arr [.str (js "hostname"), .str (js "backendPort"), .str (js "backendProtocol")]),
  (js "additionalProperties", .bool false)]

/-- `service.schema.json`, with the anchor as it is given. -/
def serviceSchemaWith (deploy : Json) : Json := .obj [
  (js "$schema", .str (js "https://json-schema.org/draft/2020-12/schema")),
  (js "$id", .str (js "https://wanfw.dev/schemas/service.schema.json")),
  (js "title", .str (js "Service document spec (§5.4)")),
  (js "type", .str (js "object")),
  (js "properties", .obj [(js "deploy", deploy), (js "expose", exposeSchema)]),
  (js "required", .arr [.str (js "deploy"), .str (js "expose")]),
  (js "additionalProperties", .bool false)]

/-- `service.schema.json`. -/
def serviceSchema : Json := serviceSchemaWith (deployAnchor [(js "plugin", nonEmptyString)])

/-! ### Composition -/

/-- `ManifestLike`. -/
structure ManifestLike where
  id : JsString
  types : List JsString
  configSchema : Option JsString

/-- The files of the trusted bundles, as far as they can be read and parsed. -/
structure Bundles where
  readManifest : JsString → Option ManifestLike
  readConfigSchema : JsString → JsString → Option Json

/-- `ComposedSchema`. The framework schema has no part in a service document. -/
structure ComposedSchema where
  envelope : Json
  framework : Json
  service : Json
  pluginConfigSchemas : Obj Json
  boundDeployPluginId : Option JsString

/-- Whether a JSON value counts as true. -/
def jsonTruthy : Json → Bool
  | .null => false
  | .bool b => b
  | .num d => d.digits ≠ 0
  | .str s => s ≠ []
  | _ => true

/-- The members that `{ ...v }` takes from a value. -/
def spreadMembers : Json → Obj Json
  | .obj o => o
  | .arr xs => xs.zipIdx.map fun e => (natToString e.2, e.1)
  | .str s => s.zipIdx.map fun e => (natToString e.2, .str [e.1])
  | _ => []

/-- The body of the loop over the trust records: the schemas so far, and the deploy plugins. -/
def collectSchema (bundles : Bundles) (acc : Obj Json × List JsString) (sha256 : JsString) : Obj Json × List JsString :=
  match bundles.readManifest sha256 with
  | none => acc
  | some manifest =>
    match manifest.configSchema.filter fun path => path ≠ [] with
    | none => acc
    | some path =>
      match (bundles.readConfigSchema sha256 path).filter jsonTruthy with
      | none => acc
      | some schema =>
        (Obj.assign acc.1 manifest.id schema,
          if manifest.types.contains (js "deploy") then acc.2 ++ [manifest.id] else acc.2)

/-- The schemas of the members of the anchor: the plugin's `properties`, if it has any, behind a schema of `plugin`. -/
def mountedProperties (deployConfigSchema : Option Json) : Obj Json :=
  match deployConfigSchema with
  | some (.obj o) =>
    match Obj.get o (js "properties") with
    | some properties => Obj.spread [(js "plugin", typeSchema (js "string"))] (spreadMembers properties)
    | none => [(js "plugin", nonEmptyString)]
  | _ => [(js "plugin", nonEmptyString)]

/-- The schemas of the trusted plugins, and the ids of the deploy plugins among them. -/
def collectedSchemas (bundles : Bundles) (trusted : List JsString) : Obj Json × List JsString :=
  trusted.foldl (collectSchema bundles) ([], [])

/-- `boundDeployPluginId`: the lowest id of a deploy plugin. -/
def boundDeployPluginId (bundles : Bundles) (trusted : List JsString) : Option JsString :=
  (sortStrings (collectedSchemas bundles trusted).2).head?

/-- `deployConfigSchema`: the schema of the bound plugin. -/
def deployConfigSchema (bundles : Bundles) (trusted : List JsString) : Option Json :=
  (boundDeployPluginId bundles trusted).bind (Obj.get (collectedSchemas bundles trusted).1)

/-- `buildComposedSchema`, for the hashes of the trust records. -/
def buildComposedSchema (framework : Json) (bundles : Bundles) (trusted : List JsString) : ComposedSchema where
  envelope := envelopeSchema
  framework := framework
  service := serviceSchemaWith (deployAnchor (mountedProperties (deployConfigSchema bundles trusted)))
  pluginConfigSchemas := (collectedSchemas bundles trusted).1
  boundDeployPluginId := boundDeployPluginId bundles trusted

/-! ### Validation -/

section Validate

variable (A : Assertions)

/-- When `validateDraftDocument` answers `valid`. The messages of the validator are left out. -/
def ValidDraft (composed : ComposedSchema) (draft : Json) : Prop :=
  ((∃ o, draft = .obj o) ∨ ∃ xs, draft = .arr xs) ∧ Accepts A composed.envelope draft ∧
    ∀ spec, draft.prop (js "spec") = some spec →
      (draft.prop (js "kind") = some (.str (js "Framework")) → Accepts A composed.framework spec) ∧
      (draft.prop (js "kind") = some (.str (js "Service")) → Accepts A composed.service spec)

end Validate

/-! ### The keywords at work -/

section Keywords

variable {rest : Assertions} {s v : Json} {k t : JsString} {o w : Obj Json}

theorem keyword_annotation (h : k ∈ annotations) : coreKeywords rest k s v := by
  rw [coreKeywords, standard, if_pos h]
  trivial

theorem keyword_type : coreKeywords rest (js "type") (.str t) v ↔ HasType t v := by
  rw [coreKeywords, standard, if_neg (by decide), if_pos rfl]
  constructor
  · rintro (⟨t', ht, h⟩ | ⟨ts, t', hts, -⟩)
    · cases ht
      exact h
    · cases hts
  · exact fun h => .inl ⟨t, rfl, h⟩

theorem keyword_enum {vs : List Json} (h : .str t ∈ vs) : coreKeywords rest (js "enum") (.arr vs) (.str t) := by
  rw [coreKeywords, standard, if_neg (by decide), if_neg (by decide), if_pos rfl]
  exact ⟨vs, .str t, rfl, h, .str t⟩

theorem keyword_minLength {n : Decimal} :
    coreKeywords rest (js "minLength") (.num n) v ↔ ∀ t, v = .str t → n ≤ .ofNat (codePoints t).length := by
  rw [coreKeywords, standard, if_neg (by decide), if_neg (by decide), if_neg (by decide), if_pos rfl]
  constructor
  · exact fun h t => h n t rfl
  · intro h n' t hn
    cases hn
    exact h t

theorem keyword_minimum {n : Decimal} : coreKeywords rest (js "minimum") (.num n) v ↔ ∀ m, v = .num m → n ≤ m := by
  rw [coreKeywords, standard, if_neg (by decide), if_neg (by decide), if_neg (by decide), if_neg (by decide), if_pos rfl]
  constructor
  · exact fun h m => h n m rfl
  · intro h n' m hn
    cases hn
    exact h m

theorem keyword_maximum {n : Decimal} : coreKeywords rest (js "maximum") (.num n) v ↔ ∀ m, v = .num m → m ≤ n := by
  rw [coreKeywords, standard, if_neg (by decide), if_neg (by decide), if_neg (by decide), if_neg (by decide), if_neg (by decide),
    if_pos rfl]
  constructor
  · exact fun h m => h n m rfl
  · intro h n' m hn
    cases hn
    exact h m

theorem keyword_idPattern (h : ∀ t, v = .str t → idPattern.test t = true) : coreKeywords rest (js "pattern") idPatternText v := by
  rw [coreKeywords, standard, if_neg (by decide), if_neg (by decide), if_neg (by decide), if_neg (by decide), if_neg (by decide),
    if_neg (by decide)]
  exact ⟨fun _ => h, fun hnot => absurd ⟨rfl, rfl⟩ hnot⟩

/-- The keywords of single values of a schema that is written out. -/
theorem assertions_of_mem {A : Assertions} (h : ∀ e ∈ o, e.1 ∉ objectKeywords → A e.1 e.2 v) :
    ∀ k s, Obj.get o k = some s → k ∉ objectKeywords → A k s v := fun _ _ hk => h _ (Obj.mem_of_get hk)

/-- A schema of one type. -/
theorem accepts_typeSchema : Accepts (coreKeywords rest) (typeSchema t) v ↔ HasType t v := by
  rw [typeSchema, accepts_obj_iff]
  constructor
  · intro h
    exact keyword_type.mp (h.1 (js "type") (.str t) rfl (by decide))
  · intro h
    refine ⟨assertions_of_mem fun e he _ => ?_, fun w _ => ⟨nofun, fun k x _ => ⟨nofun, nofun⟩⟩⟩
    rw [List.mem_singleton.mp he]
    exact keyword_type.mpr h

end Keywords

/-! ### What the schemas accept -/

section Accept

variable {rest : Assertions} {o w P : Obj Json} {d d' v x spec : Json} {k : JsString}

theorem hasType_string : HasType (js "string") v ↔ ∃ t, v = .str t := by
  cases v <;> simp +decide [HasType]

theorem hasType_object : HasType (js "object") v ↔ ∃ w, v = .obj w := by
  cases v <;> simp +decide [HasType]

theorem accepts_nonEmptyString : Accepts (coreKeywords rest) nonEmptyString v ↔ ∃ t, v = .str t ∧ t ≠ [] := by
  have hlength : ∀ t : JsString, (1 : Decimal) ≤ .ofNat (codePoints t).length ↔ t ≠ [] := by
    intro t
    refine Decimal.ofNat_le_ofNat.trans ?_
    match t with
    | [] => simp [codePoints]
    | [u] => simp [codePoints]
    | u :: u' :: t =>
      rw [codePoints]
      split <;> simp
  rw [nonEmptyString, accepts_obj_iff]
  constructor
  · intro h
    obtain ⟨t, rfl⟩ := hasType_string.mp (keyword_type.mp (h.1 (js "type") (.str (js "string")) rfl (by decide)))
    exact ⟨t, rfl, (hlength t).mp (keyword_minLength.mp (h.1 (js "minLength") (.num 1) rfl (by decide)) t rfl)⟩
  · rintro ⟨t, rfl, ht⟩
    refine ⟨assertions_of_mem fun e he _ => ?_, nofun⟩
    rcases List.mem_pair.mp he with rfl | rfl
    · exact keyword_type.mpr rfl
    · refine keyword_minLength.mpr fun t' ht' => ?_
      cases ht'
      exact (hlength t).mpr ht

/-- What the mounted properties ask of a member. -/
def AsksOf (A : Assertions) (P : Obj Json) (k : JsString) (x : Json) : Prop := ∀ s, Obj.get P k = some s → Accepts A s x

theorem accepts_deployAnchor : Accepts (coreKeywords rest) (deployAnchor P) d ↔
    ∃ w, d = .obj w ∧ js "plugin" ∈ Obj.keys w ∧ ∀ k x, Obj.get w k = some x → AsksOf (coreKeywords rest) P k x := by
  rw [deployAnchor, accepts_obj_iff]
  constructor
  · intro h
    obtain ⟨w, rfl⟩ := hasType_object.mp (keyword_type.mp (h.1 (js "type") (.str (js "object")) rfl (by decide)))
    obtain ⟨hrequired, hmembers⟩ := h.2 w rfl
    exact ⟨w, rfl, hrequired _ (List.mem_singleton_self _), fun k x hx => (hmembers k x hx).listed⟩
  · rintro ⟨w, rfl, hplugin, hmembers⟩
    refine ⟨assertions_of_mem fun e he hnot => ?_, fun w' hw => ?_⟩
    · simp only [List.mem_cons, List.not_mem_nil, or_false] at he
      rcases he with rfl | rfl | rfl | rfl
      · exact keyword_type.mpr rfl
      · exact keyword_annotation (by decide)
      · exact absurd List.mem_cons_self hnot
      · exact absurd (by decide) hnot
    · cases hw
      refine ⟨fun k hk => ?_, fun k x hx => ⟨hmembers k x hx, fun s _ hs => by cases hs⟩⟩
      cases List.mem_singleton.mp hk
      exact hplugin

/-- The schema of the two parts of a service. -/
theorem accepts_serviceSchemaWith : Accepts (coreKeywords rest) (serviceSchemaWith d) spec ↔
    ∃ w, spec = .obj w ∧ js "deploy" ∈ Obj.keys w ∧ js "expose" ∈ Obj.keys w ∧
      ∀ k x, Obj.get w k = some x → k = js "deploy" ∧ Accepts (coreKeywords rest) d x ∨
        k = js "expose" ∧ Accepts (coreKeywords rest) exposeSchema x := by
  have hdeploy : ∀ s, Obj.get [(js "deploy", d), (js "expose", exposeSchema)] (js "deploy") = some s ↔ s = d := by
    intro s
    rw [Obj.get_cons, if_pos rfl, Option.some.injEq, eq_comm]
  have hexpose : ∀ s, Obj.get [(js "deploy", d), (js "expose", exposeSchema)] (js "expose") = some s ↔ s = exposeSchema := by
    intro s
    rw [Obj.get_cons, if_neg (show js "deploy" ≠ js "expose" by decide), Obj.get_cons, if_pos rfl, Option.some.injEq, eq_comm]
  rw [serviceSchemaWith, accepts_obj_iff]
  constructor
  · intro h
    obtain ⟨w, rfl⟩ := hasType_object.mp (keyword_type.mp (h.1 (js "type") (.str (js "object")) rfl (by decide)))
    obtain ⟨hrequired, hmembers⟩ := h.2 w rfl
    refine ⟨w, rfl, hrequired _ List.mem_cons_self, hrequired _ (List.mem_cons_of_mem _ List.mem_cons_self), fun k x hx => ?_⟩
    have hmember := hmembers k x hx
    by_cases hk : k = js "deploy"
    · exact .inl ⟨hk, hmember.listed d (hk ▸ (hdeploy d).mpr rfl)⟩
    · by_cases hk' : k = js "expose"
      · exact .inr ⟨hk', hmember.listed exposeSchema (hk' ▸ (hexpose exposeSchema).mpr rfl)⟩
      · have hfalse := hmember.unlisted (.bool false) (fun hmem => (List.mem_pair.mp hmem).elim hk hk') rfl
        cases hfalse
  · rintro ⟨w, rfl, hdeployed, hexposed, hmembers⟩
    refine ⟨assertions_of_mem fun e he hnot => ?_, fun w' hw => ?_⟩
    · simp only [List.mem_cons, List.not_mem_nil, or_false] at he
      rcases he with rfl | rfl | rfl | rfl | rfl | rfl | rfl
      · exact keyword_annotation (by decide)
      · exact keyword_annotation (by decide)
      · exact keyword_annotation (by decide)
      · exact keyword_type.mpr rfl
      · exact absurd List.mem_cons_self hnot
      · exact absurd (by decide) hnot
      · exact absurd (by decide) hnot
    · cases hw
      refine ⟨fun k hk => ?_, fun k x hx => ⟨fun s hs => ?_, fun s hk _ => ?_⟩⟩
      · rcases List.mem_pair.mp hk with hk | hk
        · cases hk
          exact hdeployed
        · cases hk
          exact hexposed
      · rcases hmembers k x hx with ⟨rfl, hx⟩ | ⟨rfl, hx⟩
        · rwa [(hdeploy s).mp hs]
        · rwa [(hexpose s).mp hs]
      · rcases hmembers k x hx with ⟨rfl, -⟩ | ⟨rfl, -⟩
        · exact absurd List.mem_cons_self hk
        · exact absurd (List.mem_cons_of_mem _ List.mem_cons_self) hk

end Accept

/-! ### A draft -/

/-- An exposition that the core accepts. -/
def sampleExpose : Json := .obj [(js "hostname", .str (js "blog")), (js "backendPort", .num 80), (js "backendProtocol", .str (js "http"))]

/-- The service document of an anchor. -/
def sampleDraft (deploy : Json) : Json := .obj [
  (js "schemaVersion", .num 1), (js "kind", .str (js "Service")), (js "metadata", .obj [(js "id", .str (js "blog"))]),
  (js "spec", .obj [(js "deploy", deploy), (js "expose", sampleExpose)])]

section Sample

variable {rest : Assertions} {d : Json}

theorem accepts_sampleExpose : Accepts (coreKeywords rest) exposeSchema sampleExpose := by
  have hport : Accepts (coreKeywords rest) (.obj [(js "type", .str (js "integer")), (js "minimum", .num 1), (js "maximum", .num 65535)])
      (.num 80) := by
    refine accepts_obj_iff.mpr ⟨assertions_of_mem fun e he _ => ?_, nofun⟩
    simp only [List.mem_cons, List.not_mem_nil, or_false] at he
    rcases he with rfl | rfl | rfl
    · exact keyword_type.mpr (.inr ⟨rfl, by decide +kernel⟩)
    · refine keyword_minimum.mpr fun m hm => ?_
      cases hm
      exact Decimal.ofNat_le_ofNat.mpr (by norm_num)
    · refine keyword_maximum.mpr fun m hm => ?_
      cases hm
      exact Decimal.ofNat_le_ofNat.mpr (by norm_num)
  have hprotocol : Accepts (coreKeywords rest) (.obj [(js "type", .str (js "string")), (js "enum", .arr [.str (js "http"), .str (js "https")])])
      (.str (js "http")) := by
    refine accepts_obj_iff.mpr ⟨assertions_of_mem fun e he _ => ?_, nofun⟩
    rcases List.mem_pair.mp he with rfl | rfl
    · exact keyword_type.mpr rfl
    · exact keyword_enum List.mem_cons_self
  rw [exposeSchema, sampleExpose, accepts_object_iff]
  refine ⟨assertions_of_mem fun e he hnot => ?_, fun k hk => ?_, fun k x hx => ?_⟩
  · simp only [List.mem_cons, List.not_mem_nil, or_false] at he
    rcases he with rfl | rfl | rfl | rfl
    · exact keyword_type.mpr rfl
    · exact absurd List.mem_cons_self hnot
    · exact absurd (by decide) hnot
    · exact absurd (by decide) hnot
  · have hk : Json.str k ∈ [Json.str (js "hostname"), .str (js "backendPort"), .str (js "backendProtocol")] := hk
    simp only [List.mem_cons, List.not_mem_nil, or_false, Json.str.injEq] at hk
    rcases hk with rfl | rfl | rfl <;> decide
  · have hmem := Obj.mem_of_get hx
    simp only [List.mem_cons, List.not_mem_nil, or_false, Prod.mk.injEq] at hmem
    rcases hmem with ⟨rfl, rfl⟩ | ⟨rfl, rfl⟩ | ⟨rfl, rfl⟩
    · exact acceptsMember_of_listed rfl (accepts_nonEmptyString.mpr ⟨_, rfl, by decide⟩)
    · exact acceptsMember_of_listed rfl hport
    · exact acceptsMember_of_listed rfl hprotocol

theorem accepts_sampleDraft : Accepts (coreKeywords rest) envelopeSchema (sampleDraft d) := by
  have hversion : Accepts (coreKeywords rest) (.obj [(js "type", .str (js "integer")), (js "minimum", .num 1)]) (.num 1) := by
    refine accepts_obj_iff.mpr ⟨assertions_of_mem fun e he _ => ?_, nofun⟩
    rcases List.mem_pair.mp he with rfl | rfl
    · exact keyword_type.mpr (.inr ⟨rfl, by decide +kernel⟩)
    · refine keyword_minimum.mpr fun m hm => ?_
      cases hm
      exact le_rfl
  have hkind : Accepts (coreKeywords rest) (.obj [(js "type", .str (js "string")),
      (js "enum", .arr [.str (js "Framework"), .str (js "Service"), .str (js "PluginConfig")])]) (.str (js "Service")) := by
    refine accepts_obj_iff.mpr ⟨assertions_of_mem fun e he _ => ?_, nofun⟩
    rcases List.mem_pair.mp he with rfl | rfl
    · exact keyword_type.mpr rfl
    · exact keyword_enum (List.mem_cons_of_mem _ List.mem_cons_self)
  have hid : Accepts (coreKeywords rest) (.obj [(js "type", .str (js "string")), (js "minLength", .num 1),
      (js "pattern", idPatternText)]) (.str (js "blog")) := by
    refine accepts_obj_iff.mpr ⟨assertions_of_mem fun e he _ => ?_, nofun⟩
    simp only [List.mem_cons, List.not_mem_nil, or_false] at he
    rcases he with rfl | rfl | rfl
    · exact keyword_type.mpr rfl
    · refine keyword_minLength.mpr fun t ht => ?_
      cases ht
      exact Decimal.ofNat_le_ofNat.mpr (by decide +kernel)
    · refine keyword_idPattern fun t ht => ?_
      cases ht
      decide +kernel
  have hmetadata : Accepts (coreKeywords rest) (.obj [
      (js "type", .str (js "object")),
      (js "properties", .obj [
        (js "id", .obj [(js "type", .str (js "string")), (js "minLength", .num 1), (js "pattern", idPatternText)]),
        (js "displayName", typeSchema (js "string"))]),
      (js "required", .arr [.str (js "id")]),
      (js "additionalProperties", .bool false)]) (.obj [(js "id", .str (js "blog"))]) := by
    refine accepts_object_iff.mpr ⟨assertions_of_mem fun e he hnot => ?_, fun k hk => ?_, fun k x hx => ?_⟩
    · simp only [List.mem_cons, List.not_mem_nil, or_false] at he
      rcases he with rfl | rfl | rfl | rfl
      · exact keyword_type.mpr rfl
      · exact absurd List.mem_cons_self hnot
      · exact absurd (by decide) hnot
      · exact absurd (by decide) hnot
    · cases List.mem_singleton.mp hk
      exact List.mem_cons_self
    · cases List.mem_singleton.mp (Obj.mem_of_get hx)
      exact acceptsMember_of_listed rfl hid
  rw [envelopeSchema, sampleDraft, accepts_object_iff]
  refine ⟨assertions_of_mem fun e he hnot => ?_, fun k hk => ?_, fun k x hx => ?_⟩
  · simp only [List.mem_cons, List.not_mem_nil, or_false] at he
    rcases he with rfl | rfl | rfl | rfl | rfl | rfl | rfl
    · exact keyword_annotation (by decide)
    · exact keyword_annotation (by decide)
    · exact keyword_annotation (by decide)
    · exact keyword_type.mpr rfl
    · exact absurd List.mem_cons_self hnot
    · exact absurd (by decide) hnot
    · exact absurd (by decide) hnot
  · have hk : Json.str k ∈ [Json.str (js "schemaVersion"), .str (js "kind"), .str (js "metadata"), .str (js "spec")] := hk
    simp only [List.mem_cons, List.not_mem_nil, or_false, Json.str.injEq] at hk
    rcases hk with rfl | rfl | rfl | rfl <;> simp [Obj.keys]
  · have hmem := Obj.mem_of_get hx
    simp only [List.mem_cons, List.not_mem_nil, or_false, Prod.mk.injEq] at hmem
    rcases hmem with ⟨rfl, rfl⟩ | ⟨rfl, rfl⟩ | ⟨rfl, rfl⟩ | ⟨rfl, rfl⟩
    · exact acceptsMember_of_listed rfl hversion
    · exact acceptsMember_of_listed rfl hkind
    · exact acceptsMember_of_listed rfl hmetadata
    · exact acceptsMember_of_listed rfl (accepts_typeSchema.mpr rfl)

end Sample

/-! ### What composition preserves -/

/-- A schema for objects: `properties`, `required` and `additionalProperties`, the type `object`, and annotations. -/
def IsObjectSchema (o : Obj Json) : Prop :=
  ∀ k s, Obj.get o k = some s → k ∉ objectKeywords → k ∈ annotations ∨ k = js "type" ∧ s = .str (js "object")

/-- Every service draft that the composed schema accepts satisfies the schema `S` at its anchor, and the core's schema. -/
def Preserves (A : Assertions) (composed : ComposedSchema) (S : Json) : Prop :=
  ∀ draft, draft.prop (js "kind") = some (.str (js "Service")) → ValidDraft A composed draft →
    ∃ spec deploy, draft.prop (js "spec") = some spec ∧ spec.prop (js "deploy") = some deploy ∧
      Accepts A S deploy ∧ Accepts A serviceSchema spec

/-- The schema of the members `P` implies the schema `o`: that requires no member but `plugin`, and asks no more of any member.
Whatever `P` lets pass for `plugin` is a non-empty string. -/
structure Covered (A : Assertions) (P o : Obj Json) : Prop where
  required : ∀ k, .str k ∈ requiredKeys o → k = js "plugin"
  members : ∀ k x, AsksOf A P k x → AcceptsMember A o k x
  plugin : ∀ x, AsksOf A P (js "plugin") x → ∃ t, x = .str t ∧ t ≠ []

section Preserve

variable {rest : Assertions} {P o w : Obj Json} {framework d : Json} {bundles : Bundles} {trusted : List JsString}

theorem accepts_objectSchema (ho : IsObjectSchema o) : Accepts (coreKeywords rest) (.obj o) (.obj w) ↔
    (∀ k, .str k ∈ requiredKeys o → k ∈ Obj.keys w) ∧
      ∀ k x, Obj.get w k = some x → AcceptsMember (coreKeywords rest) o k x := by
  rw [accepts_object_iff]
  constructor
  · exact And.right
  · refine fun h => ⟨fun k s hs hk => ?_, h⟩
    rcases ho k s hs hk with hannotation | ⟨rfl, rfl⟩
    · exact keyword_annotation hannotation
    · exact keyword_type.mpr rfl

/-- A draft with an anchor that the composed schema accepts. -/
theorem validDraft_sample (h : Accepts (coreKeywords rest) (deployAnchor (mountedProperties (deployConfigSchema bundles trusted))) d) :
    ValidDraft (coreKeywords rest) (buildComposedSchema framework bundles trusted) (sampleDraft d) := by
  refine ⟨.inl ⟨_, rfl⟩, accepts_sampleDraft, fun spec hspec => ⟨nofun, fun _ => ?_⟩⟩
  cases hspec
  refine accepts_serviceSchemaWith.mpr ⟨_, rfl, by simp [Obj.keys], by simp [Obj.keys], fun k x hx => ?_⟩
  rcases List.mem_pair.mp (Obj.mem_of_get hx) with heq | heq
  · cases heq
    exact .inl ⟨rfl, h⟩
  · cases heq
    exact .inr ⟨rfl, accepts_sampleExpose⟩

theorem asksOf_singleton {A : Assertions} {x₀ : Json} (h : AsksOf A P (js "plugin") x₀) (k : JsString) (x : Json)
    (hx : Obj.get [(js "plugin", x₀)] k = some x) : AsksOf A P k x := by
  cases List.mem_singleton.mp (Obj.mem_of_get hx)
  exact h

/-- What the core asks of a member of the anchor. -/
theorem asksOf_core {k : JsString} {x : Json} : AsksOf (coreKeywords rest) [(js "plugin", nonEmptyString)] k x ↔
    (k = js "plugin" → ∃ t, x = .str t ∧ t ≠ []) := by
  unfold AsksOf
  rw [Obj.get_cons]
  by_cases hk : k = js "plugin"
  · rw [if_pos hk.symm]
    simp only [Option.some.injEq, forall_eq', hk, true_imp_iff]
    exact accepts_nonEmptyString
  · rw [if_neg (Ne.symm hk)]
    simp [hk]

/-- The envelope asks for a `spec`. -/
theorem spec_of_envelope {draft : Json} (h : Accepts (coreKeywords rest) envelopeSchema draft) :
    ∃ spec, draft.prop (js "spec") = some spec := by
  obtain ⟨hother, hobject⟩ := accepts_obj_iff.mp h
  obtain ⟨w, rfl⟩ := hasType_object.mp (keyword_type.mp (hother (js "type") (.str (js "object")) rfl (by decide)))
  have hmem : Json.str (js "spec") ∈ [Json.str (js "schemaVersion"), .str (js "kind"), .str (js "metadata"), .str (js "spec")] := by simp
  exact Obj.mem_keys_iff_get.mp ((hobject w rfl).1 _ hmem)

/-- An anchor with the members `w`, in a composed schema that preserves the constraints of the plugin and the core. -/
theorem anchor_of_preserves (h : Preserves (coreKeywords rest) (buildComposedSchema framework bundles trusted) (.obj o))
    (hplugin : js "plugin" ∈ Obj.keys w) (hmembers : ∀ k x, Obj.get w k = some x →
      AsksOf (coreKeywords rest) (mountedProperties (deployConfigSchema bundles trusted)) k x) :
    Accepts (coreKeywords rest) (.obj o) (.obj w) ∧ ∀ x, Obj.get w (js "plugin") = some x → ∃ t, x = .str t ∧ t ≠ [] := by
  obtain ⟨spec, deploy, hspec, hdeploy, hS, hcore⟩ :=
    h (sampleDraft (.obj w)) rfl (validDraft_sample (accepts_deployAnchor.mpr ⟨w, rfl, hplugin, hmembers⟩))
  cases hspec
  cases hdeploy
  refine ⟨hS, fun x hx => ?_⟩
  obtain ⟨parts, hparts, -, -, hall⟩ := accepts_serviceSchemaWith.mp hcore
  cases hparts
  rcases hall (js "deploy") (.obj w) rfl with ⟨-, hanchor⟩ | ⟨hne, -⟩
  · obtain ⟨w', hw', -, hmembers'⟩ := accepts_deployAnchor.mp hanchor
    cases hw'
    exact asksOf_core.mp (hmembers' _ x hx) rfl
  · exact absurd hne (by decide)

/-- **What composition preserves.** -/
theorem preserves_iff (rest : Assertions) (framework : Json) (bundles : Bundles) (trusted : List JsString) (ho : IsObjectSchema o) :
    Preserves (coreKeywords rest) (buildComposedSchema framework bundles trusted) (.obj o) ↔
      (∀ x, ¬ AsksOf (coreKeywords rest) (mountedProperties (deployConfigSchema bundles trusted)) (js "plugin") x) ∨
        Covered (coreKeywords rest) (mountedProperties (deployConfigSchema bundles trusted)) o := by
  constructor
  · intro h
    by_cases hsome : ∃ x, AsksOf (coreKeywords rest) (mountedProperties (deployConfigSchema bundles trusted)) (js "plugin") x
    · obtain ⟨x₀, hx₀⟩ := hsome
      have hone : ∀ x, AsksOf (coreKeywords rest) (mountedProperties (deployConfigSchema bundles trusted)) (js "plugin") x →
          Accepts (coreKeywords rest) (.obj o) (.obj [(js "plugin", x)]) ∧
            ∀ y, Obj.get [(js "plugin", x)] (js "plugin") = some y → ∃ t, y = .str t ∧ t ≠ [] :=
        fun x hx => anchor_of_preserves h List.mem_cons_self (asksOf_singleton hx)
      refine .inr ⟨fun k hk => ?_, fun k x hx => ?_, fun x hx => ?_⟩
      · have haccepts := (accepts_objectSchema ho).mp (hone x₀ hx₀).1
        exact List.mem_singleton.mp (haccepts.1 k hk)
      · by_cases hk : k = js "plugin"
        · subst hk
          exact ((accepts_objectSchema ho).mp (hone x hx).1).2 _ x (by rw [Obj.get_cons, if_pos rfl])
        · have htwo : ∀ k' x', Obj.get [(js "plugin", x₀), (k, x)] k' = some x' →
              AsksOf (coreKeywords rest) (mountedProperties (deployConfigSchema bundles trusted)) k' x' := by
            intro k' x' hx'
            rcases List.mem_pair.mp (Obj.mem_of_get hx') with heq | heq
            · cases heq
              exact hx₀
            · cases heq
              exact hx
          refine ((accepts_objectSchema ho).mp (anchor_of_preserves h List.mem_cons_self htwo).1).2 k x ?_
          rw [Obj.get_cons, if_neg (Ne.symm hk), Obj.get_cons, if_pos rfl]
      · exact (hone x hx).2 x (by rw [Obj.get_cons, if_pos rfl])
    · exact .inl fun x hx => hsome ⟨x, hx⟩
  · intro hcondition draft hkind hvalid
    obtain ⟨spec, hspec⟩ := spec_of_envelope hvalid.2.1
    obtain ⟨parts, rfl, hdeploy, hexpose, hparts⟩ := accepts_serviceSchemaWith.mp ((hvalid.2.2 spec hspec).2 hkind)
    obtain ⟨deploy, hdeploy'⟩ := Obj.mem_keys_iff_get.mp hdeploy
    have hanchor : Accepts (coreKeywords rest) (deployAnchor (mountedProperties (deployConfigSchema bundles trusted))) deploy := by
      rcases hparts _ deploy hdeploy' with ⟨-, hanchor⟩ | ⟨hne, -⟩
      · exact hanchor
      · exact absurd hne (by decide)
    obtain ⟨w, rfl, hplugin, hmembers⟩ := accepts_deployAnchor.mp hanchor
    obtain ⟨x, hx⟩ := Obj.mem_keys_iff_get.mp hplugin
    rcases hcondition with hnone | hcovered
    · exact absurd (hmembers _ x hx) (hnone x)
    · refine ⟨_, _, hspec, hdeploy', (accepts_objectSchema ho).mpr ⟨fun k hk => ?_, fun k x hx => ?_⟩, ?_⟩
      · rw [hcovered.required k hk]
        exact hplugin
      · exact hcovered.members k x (hmembers k x hx)
      · refine accepts_serviceSchemaWith.mpr ⟨parts, rfl, hdeploy, hexpose, fun k x hx => ?_⟩
        rcases hparts k x hx with ⟨rfl, -⟩ | hexposed
        · rw [hdeploy', Option.some.injEq] at hx
          subst hx
          refine .inl ⟨rfl, accepts_deployAnchor.mpr ⟨w, rfl, hplugin, fun k x hx => asksOf_core.mpr ?_⟩⟩
          rintro rfl
          exact hcovered.plugin x (hmembers _ x hx)
        · exact .inr hexposed

/-- **The bound plugin**: composition preserves its constraints when it requires no member but `plugin`, rejects no value of a
member that it does not list, and lists `plugin` with a schema of non-empty strings. -/
theorem covered_bound {properties : Obj Json} (hproperties : Obj.get o (js "properties") = some (.obj properties))
    (hnd : (Obj.keys properties).Nodup) (hrequired : ∀ k, .str k ∈ requiredKeys o → k = js "plugin")
    (hopen : ∀ k x s, k ∉ Obj.keys properties → Obj.get o (js "additionalProperties") = some s → Accepts (coreKeywords rest) s x)
    (hplugin : ∃ s, Obj.get properties (js "plugin") = some s ∧
      ∀ x, Accepts (coreKeywords rest) s x → ∃ t, x = .str t ∧ t ≠ []) :
    Covered (coreKeywords rest) (mountedProperties (some (.obj o))) o := by
  have hsub : subschemas o = properties := by rw [subschemas, hproperties]
  have hget : ∀ k s, Obj.get properties k = some s → Obj.get (mountedProperties (some (.obj o))) k = some s := by
    intro k s hs
    rw [mountedProperties, hproperties]
    dsimp only [spreadMembers]
    rw [Obj.get_spread _ _ hnd, hs, Option.some_or]
  refine ⟨hrequired, fun k x hx => ⟨fun s hs => ?_, fun s hk hs => ?_⟩, fun x hx => ?_⟩
  · rw [hsub] at hs
    exact hx s (hget k s hs)
  · rw [hsub] at hk
    exact hopen k x s hk hs
  · obtain ⟨s, hs, hstring⟩ := hplugin
    exact hstring x (hx s (hget _ s hs))

end Preserve

/-! ### A plugin whose constraints are lost, and one whose are kept -/

/-- A trusted plugin with the type `deploy` and the configuration schema `S`. -/
def TrustedDeploy (bundles : Bundles) (trusted : List JsString) (S : Json) : Prop :=
  ∃ sha256 ∈ trusted, ∃ manifest path, bundles.readManifest sha256 = some manifest ∧ js "deploy" ∈ manifest.types ∧
    manifest.configSchema = some path ∧ bundles.readConfigSchema sha256 path = some S

/-- The bundle of one deploy plugin. -/
def deployBundles (S : Json) : Bundles where
  readManifest _ := some ⟨js "deploy-docker", [js "deploy"], some (js "config-schema.json")⟩
  readConfigSchema _ _ := some S

/-- A schema with a required image, and no other members. -/
def imageSchema : Obj Json := [
  (js "type", .str (js "object")),
  (js "properties", .obj [(js "plugin", nonEmptyString), (js "image", nonEmptyString)]),
  (js "required", .arr [.str (js "plugin"), .str (js "image")]),
  (js "additionalProperties", .bool false)]

/-- A schema with an optional image. -/
def optionalImageSchema : Obj Json := [
  (js "type", .str (js "object")),
  (js "properties", .obj [(js "plugin", nonEmptyString), (js "image", nonEmptyString)]),
  (js "required", .arr [.str (js "plugin")])]

/-- With an optional image the constraints are kept. -/
theorem preserves_optionalImage : Preserves (coreKeywords fun _ _ _ => True)
    (buildComposedSchema (.bool true) (deployBundles (.obj optionalImageSchema)) [js "3f"]) (.obj optionalImageSchema) := by
  have hobject : IsObjectSchema optionalImageSchema := by
    intro k s hs hk
    have hmem := Obj.mem_of_get hs
    simp only [optionalImageSchema, List.mem_cons, List.not_mem_nil, or_false, Prod.mk.injEq] at hmem
    rcases hmem with ⟨rfl, rfl⟩ | ⟨rfl, rfl⟩ | ⟨rfl, rfl⟩
    · exact .inr ⟨rfl, rfl⟩
    · exact absurd List.mem_cons_self hk
    · exact absurd (by decide) hk
  refine (preserves_iff _ _ _ _ hobject).mpr (.inr (covered_bound rfl (by decide) (fun k hk => ?_) nofun ⟨_, rfl, fun x hx => ?_⟩))
  · cases List.mem_singleton.mp hk
    rfl
  · exact accepts_nonEmptyString.mp hx

/-- A draft without the image that the plugin requires is accepted. -/
theorem required_lost : ¬ ∀ (rest : Assertions) (framework : Json) (bundles : Bundles) (trusted : List JsString) (o : Obj Json),
    IsObjectSchema o → TrustedDeploy bundles trusted (.obj o) →
      Preserves (coreKeywords rest) (buildComposedSchema framework bundles trusted) (.obj o) := by
  intro h
  have hobject : IsObjectSchema imageSchema := by
    intro k s hs hk
    have hmem := Obj.mem_of_get hs
    simp only [imageSchema, List.mem_cons, List.not_mem_nil, or_false, Prod.mk.injEq] at hmem
    rcases hmem with ⟨rfl, rfl⟩ | ⟨rfl, rfl⟩ | ⟨rfl, rfl⟩ | ⟨rfl, rfl⟩
    · exact .inr ⟨rfl, rfl⟩
    · exact absurd List.mem_cons_self hk
    · exact absurd (by decide) hk
    · exact absurd (by decide) hk
  have htrusted : TrustedDeploy (deployBundles (.obj imageSchema)) [js "3f"] (.obj imageSchema) :=
    ⟨js "3f", List.mem_cons_self, _, _, rfl, List.mem_cons_self, rfl, rfl⟩
  have hplugin : AsksOf (coreKeywords fun _ _ _ => True)
      (mountedProperties (deployConfigSchema (deployBundles (.obj imageSchema)) [js "3f"])) (js "plugin") (.str (js "deploy-docker")) := by
    intro s hs
    cases hs
    exact accepts_nonEmptyString.mpr ⟨_, rfl, by decide⟩
  have hanchor := anchor_of_preserves (h (fun _ _ _ => True) (.bool true) _ _ _ hobject htrusted) List.mem_cons_self
    (asksOf_singleton hplugin)
  have himage := ((accepts_objectSchema hobject).mp hanchor.1).1 (js "image") (List.mem_cons_of_mem _ List.mem_cons_self)
  exact absurd himage (by decide)

end Wanfw.Orchestrator.Compose
