import Wanfw.Graph.Dfs
import Wanfw.Js.Path
import Wanfw.Js.Values
import Wanfw.Orchestrator.StateStore

/-!
# Resolving dependencies

`dependency-resolution/resolve.ts`. The resolver looks at the plugins that a role is bound to:
they must be trusted, and where the manifest of one can be read, its settings, its roles and its
plugins are checked and the graph of these manifests is searched for a cycle. It does not look at
the plugins that those depend on, it passes over a manifest that cannot be read, and it takes the
name of a member of `Object.prototype` for a bound role.

`ok_iff`: what is checked. `resolve_transitive_iff`: an accepted framework document has the whole
closure of its dependencies in order just when what is not checked holds as well (`Beyond`).
-/

namespace Wanfw.Orchestrator

open Wanfw.Js Wanfw.Graph Relation

/-- `ManifestDependencies`. -/
structure ManifestDependencies where
  settings : Option (Obj Json) := none
  roles : Option (List JsString) := none
  plugins : Option (List JsString) := none

/-- `ManifestLike`, as far as it is read. -/
structure ManifestLike where
  dependencies : Option ManifestDependencies

/-- `FrameworkSpec`: the fields of the document, and its roles as they are typed. -/
structure FrameworkSpec where
  fields : Obj Json
  roles : Option (Obj JsString)
  fields_roles : fields.get (js "roles") = roles.map fun o => .obj (o.map fun e => (e.1, .str e.2))

/-- `DependencyErrorKind`. -/
inductive DependencyErrorKind where
  | setting
  | role
  | plugin
  | cycle
  | unimplemented
  deriving DecidableEq

/-- `DependencyError`. -/
structure DependencyError where
  pluginId : JsString
  kind : DependencyErrorKind
  message : JsString
  deriving DecidableEq

/-- `ResolutionResult`. -/
structure ResolutionResult where
  ok : Bool
  errors : List DependencyError

/-- What the resolver works on: the store, the directory of the bundles, the files that can be read there
and are JSON, and the framework document. -/
structure Resolver where
  store : StateStore.Tables
  bundlesDir : JsString
  files : JsString → Option ManifestLike
  framework : FrameworkSpec

/-- A node of the graph: a plugin, or what a role that is named like a member of `Object.prototype` is
bound to. -/
inductive Node where
  | plugin (id : JsString)
  | inherited (member : JsString)
  deriving DecidableEq

/-- The members of `Object.prototype`. -/
def prototypeMembers : List JsString :=
  [js "constructor", js "__defineGetter__", js "__defineSetter__", js "hasOwnProperty", js "__lookupGetter__",
    js "__lookupSetter__", js "isPrototypeOf", js "propertyIsEnumerable", js "toString", js "valueOf", js "__proto__",
    js "toLocaleString"]

/-- `String(node)`. -/
def Node.text : Node → JsString
  | .plugin id => id
  | .inherited member =>
    if member = js "__proto__" then js "[object Object]"
    else js "function " ++ (if member = js "constructor" then js "Object" else member) ++ js "() \x7b [native code] \x7d"

namespace Resolver

variable (r : Resolver)

/-! ### The source -/

/-- `framework.roles ?? {}`. -/
def roles : Obj JsString := r.framework.roles.getD []

/-- `roles[role]`, if that is truthy. -/
def lookupRole (role : JsString) : Option Node :=
  match r.roles.get role with
  | some [] => none
  | some id => some (.plugin id)
  | none => if role ∈ prototypeMembers then some (.inherited role) else none

/-- `new Set(Object.values(roles))`. -/
def boundPluginIds : List JsString :=
  (r.roles.map (·.2)).foldl (fun ids id => if id ∈ ids then ids else ids ++ [id]) []

/-- `trustedByPluginId.get(id)`: of several versions the last. -/
def trusted (id : JsString) : Option StateStore.TrustRecordRow := (r.store.recordsOf id).getLast?

/-- `readManifest`. -/
def readManifest (sha256 : JsString) : Option ManifestLike :=
  r.files (joinPaths [r.bundlesDir, sha256, js "manifest.json"])

/-- The manifest of a trusted plugin. -/
def manifestOf (id : JsString) : Option ManifestLike := (r.trusted id).bind fun record => r.readManifest record.sha256

/-- `manifestsByPluginId`. -/
def manifestsByPluginId : List (JsString × ManifestLike) :=
  r.boundPluginIds.filterMap fun id => (r.manifestOf id).map fun manifest => (id, manifest)

/-- The bound plugins that are not trusted. -/
def trustErrors : List DependencyError :=
  (r.boundPluginIds.filter fun id => (r.trusted id).isNone).map fun id =>
    ⟨id, .plugin, js "role binding references '" ++ id ++ js "', which is not currently trusted"⟩

/-- The deployment mode that is not implemented. -/
def modeErrors : List DependencyError :=
  if Value.strictEq (r.framework.fields.get (js "deploymentMode")) (.str (js "port")) then
    [⟨js "framework", .unimplemented, js "deploymentMode=port is modeled but not implemented until v1.1"⟩]
  else []

/-- `JSON.stringify(framework[key])` in a message. -/
def currentText (key : JsString) : JsString :=
  match r.framework.fields.get key with
  | some value => stringify value
  | none => if key = js "__proto__" then js "{}" else js "undefined"

/-- The settings that are not as a manifest requires them. -/
def settingErrors (pluginId : JsString) (settings : Obj Json) : List DependencyError :=
  (settings.filter fun e => !Value.strictEq (r.framework.fields.get e.1) e.2).map fun e =>
    ⟨pluginId, .setting,
      pluginId ++ js " requires " ++ e.1 ++ js "=" ++ stringify e.2 ++ js "; current: " ++ r.currentText e.1⟩

/-- The required roles that are not bound. -/
def roleErrors (pluginId : JsString) (roles : List JsString) : List DependencyError :=
  (roles.filter fun role => (r.lookupRole role).isNone).map fun role =>
    ⟨pluginId, .role, pluginId ++ js " requires a '" ++ role ++ js "' role to be bound; none is"⟩

/-- The required plugins that are not trusted. -/
def pluginErrors (pluginId : JsString) (plugins : List JsString) : List DependencyError :=
  (plugins.filter fun id => (r.trusted id).isNone).map fun id =>
    ⟨pluginId, .plugin, pluginId ++ js " requires plugin '" ++ id ++ js "' to be trusted; it is not"⟩

/-- The checks of one manifest. -/
def manifestErrors (pluginId : JsString) (manifest : ManifestLike) : List DependencyError :=
  match manifest.dependencies with
  | none => []
  | some deps =>
    r.settingErrors pluginId (deps.settings.getD []) ++ r.roleErrors pluginId (deps.roles.getD []) ++
      r.pluginErrors pluginId (deps.plugins.getD [])

/-- The edges from a plugin, as `detectCycle` collects them. -/
def edges (manifest : ManifestLike) : List Node :=
  ((manifest.dependencies.bind (·.plugins)).getD []).map .plugin ++
    ((manifest.dependencies.bind (·.roles)).getD []).filterMap r.lookupRole

/-- `graph.get(node) ?? []`. -/
def successors : Node → List Node
  | .plugin id => if id ∈ r.boundPluginIds then ((r.manifestOf id).map r.edges).getD [] else []
  | .inherited _ => []

/-- `detectCycle`. -/
def detectCycle : Option (List Node) :=
  match findCycle r.successors (r.manifestsByPluginId.map fun e => .plugin e.1) with
  | .found cycle => some cycle
  | _ => none

/-- The cycle, if there is one. -/
def cycleErrors : List DependencyError :=
  match r.detectCycle with
  | none => []
  | some cycle =>
    [⟨((cycle.map Node.text).head?).getD [], .cycle,
      js "dependency cycle detected: " ++ join (cycle.map Node.text) (js " -> ")⟩]

/-- The errors that `resolveDependencies` collects. -/
def errors : List DependencyError :=
  r.trustErrors ++ r.modeErrors ++ (r.manifestsByPluginId.flatMap fun e => r.manifestErrors e.1 e.2) ++ r.cycleErrors

/-- `resolveDependencies`. -/
def resolveDependencies : ResolutionResult := ⟨r.errors.isEmpty, r.errors⟩

/-! ### The closure of the dependencies -/

/-- A role is bound to the plugin. -/
def Bound (id : JsString) : Prop := id ∈ r.roles.map (·.2)

/-- The plugin needs the other one: it names it, or a role that is bound to it. -/
def DependsOn (id other : JsString) : Prop :=
  ∃ manifest deps, r.manifestOf id = some manifest ∧ manifest.dependencies = some deps ∧
    (other ∈ deps.plugins.getD [] ∨ ∃ role ∈ deps.roles.getD [], r.roles.get role = some other ∧ other ≠ [])

/-- The plugin is bound, or needed by a bound one. -/
def Reachable (id : JsString) : Prop := ∃ bound, r.Bound bound ∧ ReflTransGen r.DependsOn bound id

/-- What a plugin in use must be: trusted, with a manifest that can be read, the settings as it
requires them, and its roles bound. -/
structure Satisfied (id : JsString) : Prop where
  trusted : ∃ record, r.trusted id = some record
  manifest : ∃ manifest, r.manifestOf id = some manifest
  settings : ∀ manifest deps, r.manifestOf id = some manifest → manifest.dependencies = some deps →
    ∀ e ∈ deps.settings.getD [], r.framework.fields.get e.1 = some e.2
  roles : ∀ manifest deps, r.manifestOf id = some manifest → manifest.dependencies = some deps →
    ∀ role ∈ deps.roles.getD [], ∃ other ≠ [], r.roles.get role = some other

/-- The law: everything that is reachable is in order, and there is no cycle in it. -/
structure Transitive : Prop where
  satisfied : ∀ id, r.Reachable id → r.Satisfied id
  acyclic : ∀ id, r.Reachable id → ¬ TransGen r.DependsOn id id

/-- What the resolver checks: the bound plugins, as far as their manifests can be read. -/
structure Checked : Prop where
  trusted : ∀ id, r.Bound id → ∃ record, r.trusted id = some record
  mode : Value.strictEq (r.framework.fields.get (js "deploymentMode")) (.str (js "port")) = false
  settings : ∀ id manifest deps, r.Bound id → r.manifestOf id = some manifest → manifest.dependencies = some deps →
    ∀ e ∈ deps.settings.getD [], Value.strictEq (r.framework.fields.get e.1) e.2 = true
  roles : ∀ id manifest deps, r.Bound id → r.manifestOf id = some manifest → manifest.dependencies = some deps →
    ∀ role ∈ deps.roles.getD [], ∃ node, r.lookupRole role = some node
  plugins : ∀ id manifest deps, r.Bound id → r.manifestOf id = some manifest → manifest.dependencies = some deps →
    ∀ other ∈ deps.plugins.getD [], ∃ record, r.trusted other = some record
  acyclic : ∀ id, ¬ TransGen (fun id other => r.Bound id ∧ r.DependsOn id other) id id

/-- What is beyond the checks: the manifests of bound plugins can be read, none of them requires a role
that is only the name of a member of `Object.prototype`, and the plugins that are reachable
without being bound are in order and on no cycle. -/
structure Beyond : Prop where
  manifest : ∀ id, r.Bound id → ∃ manifest, r.manifestOf id = some manifest
  roles : ∀ id manifest deps, r.Bound id → r.manifestOf id = some manifest → manifest.dependencies = some deps →
    ∀ role ∈ deps.roles.getD [], role ∈ prototypeMembers → r.roles.get role ≠ none
  satisfied : ∀ id, r.Reachable id → ¬ r.Bound id → r.Satisfied id
  acyclic : ∀ id, r.Reachable id → ¬ r.Bound id → ¬ TransGen r.DependsOn id id

variable {r} {id other role : JsString}

/-! ### The tables of the resolver -/

theorem mem_boundPluginIds : id ∈ r.boundPluginIds ↔ r.Bound id := by
  have hfold : ∀ (values ids : List JsString),
      id ∈ values.foldl (fun ids id => if id ∈ ids then ids else ids ++ [id]) ids ↔ id ∈ ids ∨ id ∈ values := by
    intro values
    induction values with
    | nil => simp
    | cons v values ih =>
      intro ids
      rw [List.foldl_cons, ih]
      split
      · rename_i hv
        constructor
        · rintro (h | h)
          · exact .inl h
          · exact .inr (List.mem_cons_of_mem _ h)
        · rintro (h | h)
          · exact .inl h
          · rcases List.mem_cons.mp h with rfl | h
            · exact .inl hv
            · exact .inr h
      · rw [List.mem_append, List.mem_singleton, List.mem_cons, or_assoc]
  rw [boundPluginIds, hfold]
  simp [Bound]

theorem mem_manifestsByPluginId {manifest : ManifestLike} :
    (id, manifest) ∈ r.manifestsByPluginId ↔ r.Bound id ∧ r.manifestOf id = some manifest := by
  rw [manifestsByPluginId, List.mem_filterMap]
  constructor
  · rintro ⟨id', hid', h⟩
    obtain ⟨manifest', hmanifest, heq⟩ := Option.map_eq_some_iff.mp h
    cases heq
    exact ⟨mem_boundPluginIds.mp hid', hmanifest⟩
  · rintro ⟨hbound, hmanifest⟩
    exact ⟨id, mem_boundPluginIds.mpr hbound, by rw [hmanifest]; rfl⟩

theorem lookupRole_eq_plugin : r.lookupRole role = some (.plugin id) ↔ r.roles.get role = some id ∧ id ≠ [] := by
  unfold lookupRole
  split
  · rename_i h
    rw [h]
    simp
  · rename_i other hne h
    rw [h]
    constructor
    · intro heq
      cases heq
      exact ⟨rfl, hne⟩
    · rintro ⟨heq, -⟩
      cases heq
      rfl
  · rename_i h
    rw [h]
    split <;> simp

/-- A role counts as bound if it is, or if an object has a member of its name. -/
theorem lookupRole_isSome_iff : (∃ node, r.lookupRole role = some node) ↔
    (∃ other ≠ [], r.roles.get role = some other) ∨ role ∈ prototypeMembers ∧ r.roles.get role = none := by
  unfold lookupRole
  split
  · rename_i h
    simp [h]
  · rename_i other hne h
    exact iff_of_true ⟨_, rfl⟩ (.inl ⟨other, hne, h⟩)
  · rename_i h
    split
    · rename_i hmember
      exact iff_of_true ⟨_, rfl⟩ (.inr ⟨hmember, h⟩)
    · rename_i hmember
      simp [h, hmember]

/-! ### The graph that is searched -/

theorem mem_edges {manifest : ManifestLike} : .plugin other ∈ r.edges manifest ↔
    ∃ deps, manifest.dependencies = some deps ∧
      (other ∈ deps.plugins.getD [] ∨ ∃ role ∈ deps.roles.getD [], r.roles.get role = some other ∧ other ≠ []) := by
  unfold edges
  cases hdeps : manifest.dependencies with
  | none => simp
  | some deps => simp [lookupRole_eq_plugin]

theorem edge_plugin_iff : Edge r.successors (.plugin id) (.plugin other) ↔ r.Bound id ∧ r.DependsOn id other := by
  rw [Edge, successors]
  split
  · rename_i hbound
    rw [mem_boundPluginIds] at hbound
    cases hmanifest : r.manifestOf id with
    | none => simp [DependsOn, hmanifest]
    | some manifest =>
      rw [Option.map_some, Option.getD_some, mem_edges]
      simp [DependsOn, hmanifest, hbound]
  · rename_i hbound
    rw [mem_boundPluginIds] at hbound
    simp [hbound]

/-- A cycle of the searched graph is one of bound plugins. -/
theorem cycle_iff : (∃ x, TransGen (Edge r.successors) x x) ↔
    ∃ id, TransGen (fun id other => r.Bound id ∧ r.DependsOn id other) id id := by
  have hplugin : ∀ x y, Edge r.successors x y → ∃ id, x = .plugin id := by
    intro x y h
    cases x with
    | plugin id => exact ⟨id, rfl⟩
    | inherited member => cases h
  constructor
  · rintro ⟨x, h⟩
    obtain ⟨y, hstep, -⟩ := TransGen.head'_iff.mp h
    obtain ⟨id, rfl⟩ := hplugin x y hstep
    have hwalk : ∀ x, TransGen (Edge r.successors) x (.plugin id) → ∀ start, x = .plugin start →
        TransGen (fun id other => r.Bound id ∧ r.DependsOn id other) start id := by
      intro x h
      induction h using TransGen.head_induction_on with
      | single hstep =>
        rintro start rfl
        exact .single (edge_plugin_iff.mp hstep)
      | head hstep hrest ih =>
        rintro start rfl
        obtain ⟨z, hnext, -⟩ := TransGen.head'_iff.mp hrest
        obtain ⟨next, rfl⟩ := hplugin _ _ hnext
        exact .head (edge_plugin_iff.mp hstep) (ih next rfl)
    exact ⟨id, hwalk _ h id rfl⟩
  · rintro ⟨id, h⟩
    exact ⟨.plugin id, h.lift Node.plugin fun _ _ => edge_plugin_iff.mpr⟩

theorem detectCycle_eq_none_iff : r.detectCycle = none ↔
    ∀ id, ¬ TransGen (fun id other => r.Bound id ∧ r.DependsOn id other) id id := by
  have hnodes : ∀ x, r.successors x ≠ [] → x ∈ r.manifestsByPluginId.map fun e => Node.plugin e.1 := by
    intro x hx
    cases x with
    | inherited member => exact absurd rfl hx
    | plugin id =>
      rw [successors] at hx
      split at hx
      · rename_i hbound
        cases hmanifest : r.manifestOf id with
        | none =>
          rw [hmanifest] at hx
          exact absurd rfl hx
        | some manifest =>
          exact List.mem_map.mpr ⟨_, mem_manifestsByPluginId.mpr ⟨mem_boundPluginIds.mp hbound, hmanifest⟩, rfl⟩
      · exact absurd rfl hx
  rw [← not_exists, ← cycle_iff]
  unfold detectCycle
  rcases findCycle_cases hnodes with ⟨cycle, hfound, hwalk⟩ | ⟨⟨color, hdone⟩, hacyclic⟩
  · rw [hfound]
    exact iff_of_false (by simp) (not_not_intro hwalk.transGen)
  · rw [hdone]
    exact iff_of_true rfl fun ⟨x, h⟩ => hacyclic x h

/-! ### What is checked -/

theorem manifestErrors_eq_nil_iff {manifest : ManifestLike} : r.manifestErrors id manifest = [] ↔
    ∀ deps, manifest.dependencies = some deps →
      (∀ e ∈ deps.settings.getD [], Value.strictEq (r.framework.fields.get e.1) e.2 = true) ∧
      (∀ role ∈ deps.roles.getD [], ∃ node, r.lookupRole role = some node) ∧
      ∀ other ∈ deps.plugins.getD [], ∃ record, r.trusted other = some record := by
  unfold manifestErrors
  cases manifest.dependencies with
  | none => simp
  | some deps =>
    simp only [List.append_eq_nil_iff, settingErrors, roleErrors, pluginErrors, List.map_eq_nil_iff,
      List.filter_eq_nil_iff, Option.some.injEq, forall_eq', and_assoc]
    simp [← Option.ne_none_iff_exists']

/-- **The resolver accepts what it checks.** -/
theorem ok_iff : r.resolveDependencies.ok = true ↔ r.Checked := by
  have htrust : r.trustErrors = [] ↔ ∀ id, r.Bound id → ∃ record, r.trusted id = some record := by
    rw [trustErrors, List.map_eq_nil_iff, List.filter_eq_nil_iff]
    simp [mem_boundPluginIds, ← Option.ne_none_iff_exists']
  have hmode : r.modeErrors = [] ↔
      Value.strictEq (r.framework.fields.get (js "deploymentMode")) (.str (js "port")) = false := by
    unfold modeErrors
    split <;> simp_all
  have hcycle : r.cycleErrors = [] ↔ r.detectCycle = none := by
    unfold cycleErrors
    split <;> simp_all
  have hmanifests : (r.manifestsByPluginId.flatMap fun e => r.manifestErrors e.1 e.2) = [] ↔
      ∀ id manifest, r.Bound id → r.manifestOf id = some manifest → r.manifestErrors id manifest = [] := by
    rw [List.flatMap_eq_nil_iff]
    constructor
    · exact fun h id manifest hbound hmanifest => h (id, manifest) (mem_manifestsByPluginId.mpr ⟨hbound, hmanifest⟩)
    · rintro h ⟨id, manifest⟩ hmem
      obtain ⟨hbound, hmanifest⟩ := mem_manifestsByPluginId.mp hmem
      exact h id manifest hbound hmanifest
  rw [resolveDependencies, List.isEmpty_iff, errors, List.append_eq_nil_iff, List.append_eq_nil_iff,
    List.append_eq_nil_iff, htrust, hmode, hcycle, hmanifests, detectCycle_eq_none_iff]
  simp only [manifestErrors_eq_nil_iff]
  constructor
  · rintro ⟨⟨⟨htrusted, hmode⟩, hchecks⟩, hacyclic⟩
    exact ⟨htrusted, hmode, fun id m deps hb hm hd => (hchecks id m hb hm deps hd).1,
      fun id m deps hb hm hd => (hchecks id m hb hm deps hd).2.1,
      fun id m deps hb hm hd => (hchecks id m hb hm deps hd).2.2, hacyclic⟩
  · rintro ⟨htrusted, hmode, hsettings, hroles, hplugins, hacyclic⟩
    exact ⟨⟨⟨htrusted, hmode⟩, fun id m hb hm deps hd =>
      ⟨hsettings id m deps hb hm hd, hroles id m deps hb hm hd, hplugins id m deps hb hm hd⟩⟩, hacyclic⟩

/-! ### The law -/

/-- Values that are the same to the code are the same. -/
theorem eq_of_strictEq {v : Value} {x : Json} (h : Value.strictEq v x = true) : v = some x := by
  cases v with
  | none => cases h
  | some y =>
    change y.strictEq x = true at h
    unfold Json.strictEq at h
    split at h
    · rfl
    · rw [beq_iff_eq] at h
      rw [h]
    · rw [beq_iff_eq] at h
      rw [h]
    · rw [beq_iff_eq] at h
      rw [h]
    · cases h

theorem reachable_of_bound (h : r.Bound id) : r.Reachable id := ⟨id, h, .refl⟩

theorem Reachable.tail (h : r.Reachable id) (hstep : ReflTransGen r.DependsOn id other) : r.Reachable other := by
  obtain ⟨bound, hbound, hpath⟩ := h
  exact ⟨bound, hbound, hpath.trans hstep⟩

/-- A walk along the dependencies stays with bound plugins, or it comes to another one. -/
theorem walk_cases (h : TransGen r.DependsOn id other) :
    TransGen (fun id other => r.Bound id ∧ r.DependsOn id other) id other ∨
      ∃ beyond, ¬ r.Bound beyond ∧ ReflTransGen r.DependsOn id beyond ∧ TransGen r.DependsOn beyond other := by
  induction h using TransGen.head_induction_on with
  | @single x hstep =>
    by_cases hbound : r.Bound x
    · exact .inl (.single ⟨hbound, hstep⟩)
    · exact .inr ⟨x, hbound, .refl, .single hstep⟩
  | @head x y hstep hrest ih =>
    by_cases hbound : r.Bound x
    · rcases ih with hinside | ⟨beyond, hnot, hto, hfrom⟩
      · exact .inl (.head ⟨hbound, hstep⟩ hinside)
      · exact .inr ⟨beyond, hnot, .head hstep hto, hfrom⟩
    · exact .inr ⟨x, hbound, .refl, .head hstep hrest⟩

theorem Checked.transitive (h : r.Checked) (hbeyond : r.Beyond) : r.Transitive := by
  refine ⟨fun id hreach => ?_, fun id hreach hcycle => ?_⟩
  · by_cases hbound : r.Bound id
    · refine ⟨h.trusted id hbound, hbeyond.manifest id hbound, fun manifest deps hm hd e he => ?_,
        fun manifest deps hm hd role hrole => ?_⟩
      · exact eq_of_strictEq (h.settings id manifest deps hbound hm hd e he)
      · rcases lookupRole_isSome_iff.mp (h.roles id manifest deps hbound hm hd role hrole) with hown | ⟨hmember, hnone⟩
        · exact hown
        · exact absurd hnone (hbeyond.roles id manifest deps hbound hm hd role hrole hmember)
    · exact hbeyond.satisfied id hreach hbound
  · rcases walk_cases hcycle with hinside | ⟨beyond, hnot, hto, hfrom⟩
    · exact h.acyclic id hinside
    · exact hbeyond.acyclic beyond (hreach.tail hto) hnot (hfrom.trans_left hto)

theorem Transitive.beyond (h : r.Transitive) : r.Beyond := by
  refine ⟨fun id hbound => (h.satisfied id (reachable_of_bound hbound)).manifest,
    fun id manifest deps hbound hm hd role hrole _ hnone => ?_, fun id hreach _ => h.satisfied id hreach,
    fun id hreach _ => h.acyclic id hreach⟩
  obtain ⟨other, -, hother⟩ := (h.satisfied id (reachable_of_bound hbound)).roles manifest deps hm hd role hrole
  rw [hnone] at hother
  cases hother

/-- **When an accepted document is in order throughout.** -/
theorem resolve_transitive_iff (r : Resolver) :
    (r.resolveDependencies.ok = true → r.Transitive) ↔ (r.Checked → r.Beyond) := by
  rw [ok_iff]
  exact ⟨fun h hchecked => (h hchecked).beyond, fun h hchecked => hchecked.transitive (h hchecked)⟩

/-- Two manifests: one needs `b`, the other a role. -/
def looseFiles : JsString → Option ManifestLike :=
  Obj.get [(js "/bundles/ha/manifest.json", ⟨some { plugins := some [js "b"] }⟩),
    (js "/bundles/hb/manifest.json", ⟨some { roles := some [js "dnsProvider"] }⟩)]

/-- The record of a plugin whose bundle has the hash. -/
def looseRecord (id sha256 : JsString) : StateStore.TrustRecordRow := ⟨id, js "1.0.0", sha256, js "[]", [], [], none⟩

/-- A role is bound to `a`, which needs `b`, which needs a role that is not bound. -/
def loose : Resolver where
  store := (StateStore.Tables.empty.insertTrustRecord (looseRecord (js "a") (js "ha"))).insertTrustRecord
    (looseRecord (js "b") (js "hb"))
  bundlesDir := js "/bundles"
  files := looseFiles
  framework := ⟨[(js "roles", .obj [(js "proxyEngine", .str (js "a"))])], some [(js "proxyEngine", js "a")], rfl⟩

theorem loose_manifestOf_a : loose.manifestOf (js "a") = some ⟨some { plugins := some [js "b"] }⟩ := by
  have htrusted : loose.trusted (js "a") = some (looseRecord (js "a") (js "ha")) := by decide +kernel
  have hpath : joinPaths [js "/bundles", js "ha", js "manifest.json"] = js "/bundles/ha/manifest.json" := by
    decide +kernel
  rw [manifestOf, htrusted]
  exact (congrArg looseFiles hpath).trans rfl

theorem loose_manifestOf_b : loose.manifestOf (js "b") = some ⟨some { roles := some [js "dnsProvider"] }⟩ := by
  have htrusted : loose.trusted (js "b") = some (looseRecord (js "b") (js "hb")) := by decide +kernel
  have hpath : joinPaths [js "/bundles", js "hb", js "manifest.json"] = js "/bundles/hb/manifest.json" := by
    decide +kernel
  rw [manifestOf, htrusted]
  exact (congrArg looseFiles hpath).trans rfl

/-- The dependency of a dependency is not looked at. -/
theorem loose_accepted : ¬ (loose.resolveDependencies.ok = true → loose.Transitive) := by
  intro h
  have htransitive := h (by decide +kernel)
  have hdeps : loose.DependsOn (js "a") (js "b") := ⟨_, _, loose_manifestOf_a, rfl, .inl List.mem_cons_self⟩
  have hreach : loose.Reachable (js "b") := ⟨js "a", List.mem_cons_self, .single hdeps⟩
  obtain ⟨other, -, hrole⟩ := (htransitive.satisfied _ hreach).roles _ _ loose_manifestOf_b rfl (js "dnsProvider")
    List.mem_cons_self
  cases hrole

end Resolver

end Wanfw.Orchestrator
