import Mathlib.Data.Set.List
import Wanfw.Orchestrator.Resolve

/-!
# Cycles among the manifests

`detectCycle` of `dependency-resolution/resolve.ts` on its own: for any map of manifests and any
map of roles, also for those that the resolver does not make. The resolver calls it with its own
(`detectCycle_eq`).

`detectCycle_correct`: the search ends, it answers with a list just when there is a cycle, and the
list is one.
-/

namespace Wanfw.Orchestrator.DetectCycle

open Wanfw.Js Wanfw.Graph Relation

variable (manifestsByPluginId : List (JsString × ManifestLike)) (roles : Obj JsString)

/-! ### The source -/

/-- `roles[role]`, if that is truthy. -/
def boundId (role : JsString) : Option Node :=
  match roles.get role with
  | some [] => none
  | some id => some (.plugin id)
  | none => if role ∈ prototypeMembers then some (.inherited role) else none

/-- The edges from a plugin. -/
def edges (manifest : ManifestLike) : List Node :=
  ((manifest.dependencies.bind (·.plugins)).getD []).map .plugin ++
    ((manifest.dependencies.bind (·.roles)).getD []).filterMap (boundId roles)

/-- `graph`. -/
def graph : List (Node × List Node) := manifestsByPluginId.map fun e => (.plugin e.1, edges roles e.2)

/-- `graph.get(node) ?? []`. -/
def successors (node : Node) : List Node := ((graph manifestsByPluginId roles).lookup node).getD []

/-- The search of `detectCycle`. -/
def search : Outcome Node := findCycle (successors manifestsByPluginId roles) ((graph manifestsByPluginId roles).map (·.1))

/-- `detectCycle`. -/
def detectCycle : Option (List Node) :=
  match search manifestsByPluginId roles with
  | .found cycle => some cycle
  | _ => none

/-! ### The graph -/

/-- A plugin needs the other one: its manifest names it, or a role that it is bound to. -/
def Needs (id other : JsString) : Prop :=
  ∃ manifest deps, manifestsByPluginId.lookup id = some manifest ∧ manifest.dependencies = some deps ∧
    (other ∈ deps.plugins.getD [] ∨ ∃ role ∈ deps.roles.getD [], roles.get role = some other ∧ other ≠ [])

variable {manifestsByPluginId} {roles} {id other role : JsString} {node next : Node}

theorem boundId_eq_plugin : boundId roles role = some (.plugin other) ↔ roles.get role = some other ∧ other ≠ [] := by
  unfold boundId
  split
  · rename_i h
    rw [h]
    simp
  · rename_i id hne h
    rw [h, Option.some.injEq, Option.some.injEq, Node.plugin.injEq]
    exact ⟨fun heq => ⟨heq, heq ▸ hne⟩, fun heq => heq.1⟩
  · rename_i h
    rw [h]
    split <;> simp

/-- A manifest is found under its plugin. -/
theorem lookup_graph : (graph manifestsByPluginId roles).lookup (.plugin id) =
    (manifestsByPluginId.lookup id).map (edges roles) := by
  unfold graph
  induction manifestsByPluginId with
  | nil => rfl
  | cons e manifests ih =>
    rw [List.map_cons]
    by_cases heq : id = e.1
    · subst heq
      rw [List.lookup_cons_self, List.lookup_cons_self, Option.map_some]
    · have hnode : (Node.plugin id == Node.plugin e.1) = false := by simpa using heq
      have hid : (id == e.1) = false := by simpa using heq
      rw [List.lookup_cons, hnode, List.lookup_cons, hid]
      exact ih

theorem lookup_inherited {member : JsString} : (graph manifestsByPluginId roles).lookup (.inherited member) = none := by
  rw [List.lookup_eq_none_iff]
  intro p hp
  obtain ⟨e, -, rfl⟩ := List.mem_map.mp hp
  rfl

theorem edge_plugin_iff : Edge (successors manifestsByPluginId roles) (.plugin id) (.plugin other) ↔
    Needs manifestsByPluginId roles id other := by
  rw [Edge, successors, lookup_graph, Needs]
  cases manifestsByPluginId.lookup id with
  | none => simp
  | some manifest =>
    rw [Option.map_some, Option.getD_some, edges]
    cases hdeps : manifest.dependencies with
    | none => simp [hdeps]
    | some deps => simp [hdeps, boundId_eq_plugin]

/-- What has a successor is a plugin with a manifest. -/
theorem mem_keys_of_successors (h : successors manifestsByPluginId roles node ≠ []) :
    node ∈ (graph manifestsByPluginId roles).map (·.1) := by
  by_contra hnot
  have hlookup : (graph manifestsByPluginId roles).lookup node = none := by
    rw [List.lookup_eq_none_iff]
    intro p hp
    rw [bne_iff_ne]
    rintro rfl
    exact hnot (List.mem_map_of_mem hp)
  rw [successors, hlookup] at h
  exact h rfl

theorem plugin_of_edge (h : Edge (successors manifestsByPluginId roles) node next) : ∃ id, node = .plugin id := by
  cases node with
  | plugin id => exact ⟨id, rfl⟩
  | inherited member =>
    rw [Edge, successors, lookup_inherited] at h
    cases h

/-- The graph that the resolver searches. -/
theorem lookup_manifestsByPluginId (r : Resolver) (id : JsString) :
    r.manifestsByPluginId.lookup id = if id ∈ r.boundPluginIds then r.manifestOf id else none := by
  unfold Resolver.manifestsByPluginId
  induction r.boundPluginIds with
  | nil => rfl
  | cons first ids ih =>
    by_cases heq : id = first
    · subst heq
      rw [if_pos List.mem_cons_self, List.filterMap_cons]
      cases hmanifest : r.manifestOf id with
      | none =>
        rw [Option.map_none, ih, hmanifest]
        exact ite_self none
      | some manifest => rw [Option.map_some, List.lookup_cons_self]
    · have hmem : id ∈ first :: ids ↔ id ∈ ids := by rw [List.mem_cons, or_iff_right heq]
      rw [if_congr hmem rfl rfl, ← ih, List.filterMap_cons]
      cases r.manifestOf first with
      | none => rfl
      | some manifest => rw [Option.map_some, List.lookup_cons, beq_eq_false_iff_ne.mpr heq]

theorem detectCycle_eq (r : Resolver) : detectCycle r.manifestsByPluginId r.roles = r.detectCycle := by
  have hsucc : successors r.manifestsByPluginId r.roles = r.successors := by
    funext node
    cases node with
    | inherited member =>
      rw [successors, lookup_inherited]
      rfl
    | plugin id =>
      rw [successors, lookup_graph, lookup_manifestsByPluginId, Resolver.successors]
      split <;> rfl
  rw [detectCycle, search, hsucc, graph, List.map_map]
  rfl

/-! ### The search is right -/

/-- A closed walk is one over plugins. -/
theorem plugins_of_closed {cycle : List Node} (h : ClosedWalk (successors manifestsByPluginId roles) cycle) :
    ∃ id rest, cycle = (id :: (rest ++ [id])).map Node.plugin ∧
      (id :: (rest ++ [id])).IsChain (Needs manifestsByPluginId roles) := by
  obtain ⟨node, rest, rfl⟩ := h.closed
  have hchain := h.chain
  -- a node with a successor is a plugin, and all but the last have one
  have hplugins : ∀ x ∈ node :: rest, ∃ id, x = .plugin id := by
    intro x hx
    obtain ⟨before, after, hsplit⟩ := List.append_of_mem hx
    obtain ⟨next, after', hafter⟩ := List.exists_cons_of_ne_nil (List.append_ne_nil_of_right_ne_nil after (List.cons_ne_nil node []))
    have hwalk : (before ++ x :: next :: after').IsChain (Edge (successors manifestsByPluginId roles)) := by
      rwa [← hafter, ← List.cons_append, ← List.append_assoc, ← hsplit]
    exact plugin_of_edge (List.isChain_cons_cons.mp hwalk.right_of_append).1
  obtain ⟨⟨id, rfl⟩, hrest⟩ := List.forall_mem_cons.mp hplugins
  have hrange : rest ∈ Set.range (List.map Node.plugin) := by
    rw [Set.range_list_map]
    intro x hx
    obtain ⟨other, rfl⟩ := hrest x hx
    exact ⟨other, rfl⟩
  obtain ⟨ids, rfl⟩ := hrange
  have hcycle : Node.plugin id :: (ids.map Node.plugin ++ [.plugin id]) = (id :: (ids ++ [id])).map .plugin := by simp
  refine ⟨id, ids, hcycle, ?_⟩
  rw [hcycle, List.isChain_map] at hchain
  exact hchain.imp fun _ _ => edge_plugin_iff.mp

/-- **`detectCycle` is sound and complete**: it ends, it returns a list just when there is a cycle, and the list leads from a
plugin along the dependencies back to that plugin. -/
theorem detectCycle_correct (manifestsByPluginId : List (JsString × ManifestLike)) (roles : Obj JsString) :
    search manifestsByPluginId roles ≠ .exhausted ∧
      ((∃ cycle, detectCycle manifestsByPluginId roles = some cycle) ↔
        ∃ id, TransGen (Needs manifestsByPluginId roles) id id) ∧
      ∀ cycle, detectCycle manifestsByPluginId roles = some cycle → ∃ ids : List JsString, cycle = ids.map .plugin ∧
        2 ≤ ids.length ∧ ids.head? = ids.getLast? ∧ ids.IsChain (Needs manifestsByPluginId roles) := by
  have hkeys : ∀ node, successors manifestsByPluginId roles node ≠ [] →
      node ∈ (graph manifestsByPluginId roles).map (·.1) := fun _ => mem_keys_of_successors
  unfold detectCycle search
  rcases findCycle_cases hkeys with ⟨cycle, hfound, hwalk⟩ | ⟨⟨color, hdone⟩, hacyclic⟩
  · rw [hfound]
    obtain ⟨id, rest, rfl, hchain⟩ := plugins_of_closed hwalk
    refine ⟨by simp, iff_of_true ⟨_, rfl⟩ ⟨id, transGen_of_closed hchain⟩, ?_⟩
    rintro cycle ⟨⟩
    refine ⟨_, rfl, by simp, ?_, hchain⟩
    rw [List.head?_cons, ← List.cons_append, List.getLast?_concat]
  · rw [hdone]
    refine ⟨by simp, iff_of_false (by simp) ?_, by simp⟩
    rintro ⟨id, h⟩
    exact hacyclic _ (h.lift Node.plugin fun _ _ => edge_plugin_iff.mpr)

end Wanfw.Orchestrator.DetectCycle
